import Argentum.Net.Connection
import Argentum.Net.Socket

/-!
# Argentum.Net.SocketCalls

The socket system calls of `kernel/syscall.c` (`sys_socket`, `sys_bind`, `sys_connect`,
`sys_listen`, `sys_accept`, `sys_recvfrom`, `sys_sendto`, `sys_setsockopt`) over the glue of
`kernel/net/net.c` that finds a Connection's lwIP socket.

A socket is a Connection of type `CONNECTION_TYPE_SOCKET` with a `SocketEndpoint` in
`socket_hash` that names its lwIP socket; its IPC `endpoint` stays `NULL`. `socket_hash` is kept
as the list its lookup visits: `HASH_PUT` adds at the back of a bucket, and the endpoints of one
Connection share a bucket. `lwipOpen` lists the open lwIP sockets in the order they were opened.

lwIP is the environment: what each of its calls returns on a socket is a parameter, and so are
whether memory is left for `k_malloc` (`kMallocOk`: it panics otherwise, and never returns `NULL`
for the sizes asked here), the Connection `connection_alloc` takes from the pool, and the
results of `sys_copy_out`. Each call is modelled from the point where its arguments are fetched.
`none` is a panic, or a dereference of a `NULL` endpoint or of a pointer the code never set.

`net_close` is the only code that closes a socket's lwIP socket or takes its endpoint out of
`socket_hash`, and nothing calls it: along every run both lists only grow (`NetStep.grows`).
-/

namespace Argentum.Net

open Argentum.Mm Argentum.Ipc

/-- A `struct SocketEndpoint`. -/
structure SocketEndpoint where
  connection : Nat
  socket : Nat
deriving DecidableEq, Repr

/-- The Connections and descriptor tables, `socket_hash`, and the open lwIP sockets. -/
structure NetState where
  conn : ConnState
  socketHash : List SocketEndpoint
  lwipOpen : List Nat

/-! ## `net.c` -/

/-- `net_get_connection_endpoint`: the first endpoint of the Connection, `NULL` for none. -/
def netGetConnectionEndpoint (hash : List SocketEndpoint) (c : Nat) : Option SocketEndpoint :=
  hash.find? (·.connection == c)

/-- `net_set_connection_endpoint(endpoint, connection, socket)`. -/
def netSetConnectionEndpoint (ns : NetState) (c sock : Nat) : NetState :=
  { ns with
    conn :=
      match ns.conn.connections c with
      | some f =>
        ns.conn.setConnection c (some { f with type := .socket, refCount := f.refCount + 1 })
      | none => ns.conn
    socketHash := ns.socketHash ++ [⟨c, sock⟩] }

/-- The path `net_socket` and `net_accept` share once lwIP has opened `sock`: `connection_alloc`
takes `c` from the pool, and `net_set_connection_endpoint` makes it the socket's. -/
def netNewSocket (ns : NetState) (c sock : Nat) : NetState :=
  netSetConnectionEndpoint
    { ns with conn := connectionAlloc ns.conn c, lwipOpen := ns.lwipOpen ++ [sock] } c sock

/-- `sizeof(struct SocketEndpoint)`: a list link of two pointers, a pointer and an `int`. -/
def socketEndpointSize : Nat := 16

/-- `net_socket(domain, type, protocol, &f)`: `mem` is whether memory is left for `k_malloc` of
the endpoint, `lwip` what `lwip_socket` returns (a socket, or `errno`), and `alloc` the
Connection that `connection_alloc` takes (`none`: the pool is empty). The result, and `*fstore`
if set. -/
def netSocket (ns : NetState) (mem : Bool) (lwip : Except Int Nat) (alloc : Option Nat) :
    Option (NetState × Int × Option Nat) :=
  match kMallocOk mem socketEndpointSize with
  | none => none
  | some false => some (ns, -eNoMem, none)
  | some true =>
    match lwip with
    | .error errno => some (ns, -errno, none)
    | .ok sock =>
      match alloc with
      -- `lwip_close(socket)` closes the new socket again
      | none => some (ns, -eNoMem, none)
      | some c => some (netNewSocket ns c sock, 0, some c)

/-- `net_bind`, `net_listen` and `net_connect`: `lwip` is what the lwIP call returns on a
socket. -/
def netCall (hash : List SocketEndpoint) (file : Nat) (lwip : Nat → Int) (errno : Int) :
    Option Int :=
  (netGetConnectionEndpoint hash file).map fun e => if lwip e.socket ≠ 0 then -errno else 0

/-- `net_bind(file, address, address_len)`. -/
def netBind (hash : List SocketEndpoint) (file : Nat) (lwipBind : Nat → Int) (errno : Int) :
    Option Int :=
  netCall hash file lwipBind errno

/-- `net_listen(file, backlog)`. -/
def netListen (hash : List SocketEndpoint) (file : Nat) (lwipListen : Nat → Int) (errno : Int) :
    Option Int :=
  netCall hash file lwipListen errno

/-- `net_connect(file, address, address_len)`. -/
def netConnect (hash : List SocketEndpoint) (file : Nat) (lwipConnect : Nat → Int)
    (errno : Int) : Option Int :=
  netCall hash file lwipConnect errno

/-- `net_setsockopt(file, ...)`: unlike the others it passes a non-negative lwIP result on. -/
def netSetsockopt (hash : List SocketEndpoint) (file : Nat) (lwipSetsockopt : Nat → Int)
    (errno : Int) : Option Int :=
  (netGetConnectionEndpoint hash file).map fun e =>
    if lwipSetsockopt e.socket < 0 then -errno else lwipSetsockopt e.socket

/-- `net_accept(file, address, address_len, &f)`: `accepted` is what `lwip_accept` returns on a
socket (a new socket, or `errno`), `mem` whether memory is left for `k_malloc` of the endpoint,
`alloc` the Connection from the pool, and `garbage` the value of `r`, which the code returns
unset where `k_malloc` returns `NULL`. The result, and `*fstore` if set. -/
def netAccept (ns : NetState) (file : Nat) (accepted : Nat → Except Int Nat) (mem : Bool)
    (alloc : Option Nat) (garbage : Int) : Option (NetState × Int × Option Nat) :=
  match netGetConnectionEndpoint ns.socketHash file with
  | none => none
  | some e =>
    match accepted e.socket with
    | .error errno => some (ns, -errno, none)
    | .ok sock =>
      -- the error paths `lwip_close` the accepted socket again
      match kMallocOk mem socketEndpointSize with
      | none => none
      | some false => some (ns, garbage, none)
      | some true =>
        match alloc with
        | none => some (ns, -eNoMem, none)
        | some c => some (netNewSocket ns c sock, 0, some c)

/-- `net_recvfrom(file, va, nbytes, ...)`: the loop `netRecvfrom` on the socket of the
Connection's endpoint, whose `k`-th `lwip_recvfrom` on socket `sock` is `recv sock k`. Without
an endpoint the code dereferences `NULL` at its first `lwip_recvfrom`, which it makes unless
nothing is asked or `k_malloc` of the staging buffer panics first. -/
def netRecvfromFile (hash : List SocketEndpoint) (file : Nat) (M : Space) (pgtab : Nat)
    (recv : Nat → Nat → RecvResult) (staging : Option (Nat → UInt8)) (errno : Int)
    (va nbytes : Nat) : Option (Space × Int) :=
  match netGetConnectionEndpoint hash file with
  | some e => netRecvfrom M pgtab (recv e.socket) staging errno va nbytes
  | none =>
    if staging.isNone ∨ nbytes = 0 then
      netRecvfrom M pgtab (fun _ => .data []) staging errno va nbytes
    else none

/-- `net_sendto(file, va, nbytes, ...)`: the loop `netSendto` on the socket of the Connection's
endpoint. Without an endpoint the code dereferences `NULL` at its first `lwip_sendto`, after the
first chunk is copied in. -/
def netSendtoFile (hash : List SocketEndpoint) (file : Nat) (M : Space) (pgtab : Nat)
    (sent : Nat → Nat → SendResult) (staging : Bool) (errno : Int) (va nbytes : Nat) :
    Option (List (List UInt8) × Int) :=
  match netGetConnectionEndpoint hash file with
  | some e => netSendto M pgtab (sent e.socket) staging errno va nbytes
  | none =>
    if !staging ∨ nbytes = 0 then netSendto M pgtab (fun _ => .accepted 0) staging errno va nbytes
    else
      match vmSpaceCopyIn M pgtab va (min nbytes pageSize) with
      | some (.error _) => some ([], -errno)
      | _ => none

/-! ## `syscall.c` -/

/-- `sys_socket(domain, type, protocol)`. -/
def sysSocket (ns : NetState) (p : Nat) (mem : Bool) (lwip : Except Int Nat)
    (alloc : Option Nat) : Option (NetState × Int) :=
  match netSocket ns mem lwip alloc with
  | none => none
  | some (ns₁, r, file) =>
    if r ≠ 0 then some (ns₁, r)
    else
      match file with
      | none => none
      | some file =>
        let a := fdAlloc ns₁.conn p file 0
        (connectionUnref a.1 file).map fun conn₂ => ({ ns₁ with conn := conn₂ }, a.2)

/-- `sys_bind`, `sys_listen`, `sys_connect`, `sys_sendto` and `sys_setsockopt`: `fd_lookup`, the
`net_*` call on the Connection, and `connection_unref` of the lookup's reference. -/
def sysNetCall (net : List SocketEndpoint → Nat → Option Int) (ns : NetState) (p : Nat)
    (fd : Int) : Option (NetState × Int) :=
  match fdLookup ns.conn p fd with
  | none => some (ns, -eBadF)
  | some (conn₁, file) =>
    match net ns.socketHash file with
    | none => none
    | some r => (connectionUnref conn₁ file).map fun conn₂ => ({ ns with conn := conn₂ }, r)

/-- `sys_bind(fd, address, address_len)`. -/
def sysBind (ns : NetState) (p : Nat) (fd : Int) (lwipBind : Nat → Int) (errno : Int) :
    Option (NetState × Int) :=
  sysNetCall (netBind · · lwipBind errno) ns p fd

/-- `sys_listen(fd, backlog)`. -/
def sysListen (ns : NetState) (p : Nat) (fd : Int) (lwipListen : Nat → Int) (errno : Int) :
    Option (NetState × Int) :=
  sysNetCall (netListen · · lwipListen errno) ns p fd

/-- `sys_connect(fd, address, address_len)`. -/
def sysConnect (ns : NetState) (p : Nat) (fd : Int) (lwipConnect : Nat → Int) (errno : Int) :
    Option (NetState × Int) :=
  sysNetCall (netConnect · · lwipConnect errno) ns p fd

/-- `sys_setsockopt(fd, level, option_name, option_value, option_len)`. -/
def sysSetsockopt (ns : NetState) (p : Nat) (fd : Int) (lwipSetsockopt : Nat → Int)
    (errno : Int) : Option (NetState × Int) :=
  sysNetCall (netSetsockopt · · lwipSetsockopt errno) ns p fd

/-- `sys_sendto(fd, message, length, flags, dest_addr, dest_len)`. -/
def sysSendto (ns : NetState) (M : Space) (pgtab p : Nat) (fd : Int)
    (sent : Nat → Nat → SendResult) (staging : Bool) (errno : Int) (va nbytes : Nat) :
    Option (NetState × Int) :=
  sysNetCall (fun hash file =>
    (netSendtoFile hash file M pgtab sent staging errno va nbytes).map (·.2)) ns p fd

/-- `sys_accept(fd, address, address_len)`: `copyAddr` and `copyLen` are the results of its two
`sys_copy_out` calls (0 where the pointer is `NULL`). It returns `conn_fd`, the value
`net_accept` returned, not the descriptor `fd_alloc` installed. -/
def sysAccept (ns : NetState) (p : Nat) (fd : Int) (accepted : Nat → Except Int Nat)
    (mem : Bool) (alloc : Option Nat) (garbage copyAddr copyLen : Int) :
    Option (NetState × Int) :=
  match fdLookup ns.conn p fd with
  | none => some (ns, -eBadF)
  | some (conn₁, sockf) =>
    match netAccept { ns with conn := conn₁ } sockf accepted mem alloc garbage with
    | none => none
    | some (ns₁, connFd, connf) =>
      -- `out2`
      if connFd < 0 then
        (connectionUnref ns₁.conn sockf).map fun conn₂ => ({ ns₁ with conn := conn₂ }, connFd)
      else
        match connf with
        -- `connf` was never set
        | none => none
        | some connf =>
          let a := fdAlloc ns₁.conn p connf 0
          let r :=
            if a.2 < 0 then a.2
            else if copyAddr < 0 then copyAddr
            else if copyLen < 0 then copyLen
            else connFd
          -- `out3`, then `out2`
          (connectionUnref a.1 connf).bind fun conn₂ =>
            (connectionUnref conn₂ sockf).map fun conn₃ => ({ ns₁ with conn := conn₃ }, r)

/-- `sys_recvfrom(fd, buffer, length, flags, address, address_len)`: `copyAddr` and `copyLen`
are the results of its two `sys_copy_out` calls. When `net_recvfrom` fails it returns before
its `connection_unref`. -/
def sysRecvfrom (ns : NetState) (M : Space) (pgtab p : Nat) (fd : Int)
    (recv : Nat → Nat → RecvResult) (staging : Option (Nat → UInt8)) (errno : Int)
    (va nbytes : Nat) (copyAddr copyLen : Int) : Option (NetState × Space × Int) :=
  match fdLookup ns.conn p fd with
  | none => some (ns, M, -eBadF)
  | some (conn₁, file) =>
    match netRecvfromFile ns.socketHash file M pgtab recv staging errno va nbytes with
    | none => none
    | some (M₁, nread) =>
      if nread < 0 then some ({ ns with conn := conn₁ }, M₁, nread)
      else
        (connectionUnref conn₁ file).map fun conn₂ =>
          ({ ns with conn := conn₂ }, M₁,
            if copyAddr < 0 then copyAddr else if copyLen < 0 then copyLen else nread)

/-! ## Runs: `socket_hash` and the lwIP sockets only grow -/

/-- All of `socket_hash` and of the open lwIP sockets is kept, in order. -/
def NetState.Grows (ns ns' : NetState) : Prop :=
  ns.socketHash <+: ns'.socketHash ∧ ns.lwipOpen <+: ns'.lwipOpen

theorem NetState.Grows.refl (ns : NetState) : ns.Grows ns :=
  ⟨List.prefix_refl _, List.prefix_refl _⟩

theorem NetState.Grows.trans {ns₁ ns₂ ns₃ : NetState} (h₁ : ns₁.Grows ns₂) (h₂ : ns₂.Grows ns₃) :
    ns₁.Grows ns₃ :=
  ⟨h₁.1.trans h₂.1, h₁.2.trans h₂.2⟩

theorem netNewSocket_grows (ns : NetState) (c sock : Nat) : ns.Grows (netNewSocket ns c sock) :=
  ⟨List.prefix_append _ _, List.prefix_append _ _⟩

theorem netSocket_grows {ns ns₁ : NetState} {mem : Bool} {lwip : Except Int Nat}
    {alloc f : Option Nat} {r : Int} (h : netSocket ns mem lwip alloc = some (ns₁, r, f)) :
    ns.Grows ns₁ := by
  unfold netSocket at h
  split at h
  · cases h
  · cases h
    exact .refl ns
  · split at h
    · cases h
      exact .refl ns
    · split at h
      · cases h
        exact .refl ns
      · cases h
        exact netNewSocket_grows _ _ _

theorem netAccept_grows {ns ns₁ : NetState} {file : Nat} {accepted : Nat → Except Int Nat}
    {mem : Bool} {alloc f : Option Nat} {garbage r : Int}
    (h : netAccept ns file accepted mem alloc garbage = some (ns₁, r, f)) : ns.Grows ns₁ := by
  unfold netAccept at h
  split at h
  · cases h
  · split at h
    · cases h
      exact .refl ns
    · split at h
      · cases h
      · cases h
        exact .refl ns
      · split at h
        · cases h
          exact .refl ns
        · cases h
          exact netNewSocket_grows _ _ _

theorem sysSocket_grows {ns ns' : NetState} {p : Nat} {mem : Bool} {lwip : Except Int Nat}
    {alloc : Option Nat} {r : Int} (h : sysSocket ns p mem lwip alloc = some (ns', r)) :
    ns.Grows ns' := by
  unfold sysSocket at h
  split at h
  · cases h
  rename_i ns₁ r₁ file hsock
  have hgrows := netSocket_grows hsock
  split at h
  · cases h
    exact hgrows
  · split at h
    · cases h
    · obtain ⟨conn₂, -, hs⟩ := Option.map_eq_some_iff.mp h
      cases hs
      exact hgrows

theorem sysNetCall_grows {net : List SocketEndpoint → Nat → Option Int} {ns ns' : NetState}
    {p : Nat} {fd r : Int} (h : sysNetCall net ns p fd = some (ns', r)) : ns.Grows ns' := by
  unfold sysNetCall at h
  split at h
  · cases h
    exact .refl ns
  · split at h
    · cases h
    · obtain ⟨conn₂, -, hs⟩ := Option.map_eq_some_iff.mp h
      cases hs
      exact .refl ns

theorem sysAccept_grows {ns ns' : NetState} {p : Nat} {fd : Int}
    {accepted : Nat → Except Int Nat} {mem : Bool} {alloc : Option Nat}
    {garbage copyAddr copyLen r : Int}
    (h : sysAccept ns p fd accepted mem alloc garbage copyAddr copyLen = some (ns', r)) :
    ns.Grows ns' := by
  unfold sysAccept at h
  split at h
  · cases h
    exact .refl ns
  · rename_i conn₁ sockf _
    split at h
    · cases h
    · rename_i ns₁ connFd connf hacc
      -- what `net_accept` added stays; the rest of the call writes Connections and slots only
      have hgrows : ns.Grows ns₁ := by
        have h₁ := netAccept_grows hacc
        exact h₁
      split at h
      · obtain ⟨conn₂, -, hs⟩ := Option.map_eq_some_iff.mp h
        cases hs
        exact hgrows
      · split at h
        · cases h
        · obtain ⟨conn₂, -, h⟩ := Option.bind_eq_some_iff.mp h
          obtain ⟨conn₃, -, hs⟩ := Option.map_eq_some_iff.mp h
          cases hs
          exact hgrows

theorem sysRecvfrom_grows {ns ns' : NetState} {M M' : Space} {pgtab p : Nat} {fd : Int}
    {recv : Nat → Nat → RecvResult} {staging : Option (Nat → UInt8)} {errno : Int}
    {va nbytes : Nat} {copyAddr copyLen r : Int}
    (h : sysRecvfrom ns M pgtab p fd recv staging errno va nbytes copyAddr copyLen =
      some (ns', M', r)) : ns.Grows ns' := by
  unfold sysRecvfrom at h
  split at h
  · cases h
    exact .refl ns
  · split at h
    · cases h
    · split at h
      · cases h
        exact .refl ns
      · obtain ⟨conn₂, -, hs⟩ := Option.map_eq_some_iff.mp h
        cases hs
        exact .refl ns

/-- The operations on sockets and descriptors. As in `FdStep`, a call that panics or
dereferences a bad pointer makes no step; lwIP's results and the memory left are free, and the pool
hands out a Connection that is in it. -/
inductive NetStep : NetState → NetState → Prop
  | fd {ns : NetState} {conn : ConnState} (h : FdStep ns.conn conn) :
      NetStep ns { ns with conn := conn }
  | socket {ns ns' : NetState} {p : Nat} {mem : Bool} {lwip : Except Int Nat}
      {alloc : Option Nat} {r : Int} (hfree : ∀ c ∈ alloc, ns.conn.connections c = none)
      (h : sysSocket ns p mem lwip alloc = some (ns', r)) : NetStep ns ns'
  | accept {ns ns' : NetState} {p : Nat} {fd : Int} {accepted : Nat → Except Int Nat}
      {mem : Bool} {alloc : Option Nat} {garbage copyAddr copyLen r : Int}
      (hfree : ∀ c ∈ alloc, ns.conn.connections c = none)
      (h : sysAccept ns p fd accepted mem alloc garbage copyAddr copyLen = some (ns', r)) :
      NetStep ns ns'
  | call {ns ns' : NetState} {net : List SocketEndpoint → Nat → Option Int} {p : Nat}
      {fd r : Int} (h : sysNetCall net ns p fd = some (ns', r)) : NetStep ns ns'
  | recvfrom {ns ns' : NetState} {M M' : Space} {pgtab p : Nat} {fd : Int}
      {recv : Nat → Nat → RecvResult} {staging : Option (Nat → UInt8)} {errno : Int}
      {va nbytes : Nat} {copyAddr copyLen r : Int}
      (h : sysRecvfrom ns M pgtab p fd recv staging errno va nbytes copyAddr copyLen =
        some (ns', M', r)) : NetStep ns ns'

theorem NetStep.grows {ns ns' : NetState} (step : NetStep ns ns') : ns.Grows ns' := by
  cases step with
  | fd => exact .refl ns
  | socket _ h => exact sysSocket_grows h
  | accept _ h => exact sysAccept_grows h
  | call h => exact sysNetCall_grows h
  | recvfrom h => exact sysRecvfrom_grows h

/-- Along every run, `socket_hash` and the open lwIP sockets only grow. -/
theorem NetState.Grows.run {ns ns' : NetState} (steps : Relation.ReflTransGen NetStep ns ns') :
    ns.Grows ns' := by
  induction steps with
  | refl => exact .refl ns
  | tail _ step ih => exact ih.trans step.grows

/-! ## A descriptor whose Connection is not a socket -/

section NoEndpoint

variable {ns : NetState} {p : Nat} {fd : Int} {conn₁ : ConnState} {file : Nat}

theorem netCall_of_none {hash : List SocketEndpoint} (h : netGetConnectionEndpoint hash file = none)
    (lwip : Nat → Int) (errno : Int) : netCall hash file lwip errno = none := by
  simp [netCall, h]

theorem netSetsockopt_of_none {hash : List SocketEndpoint}
    (h : netGetConnectionEndpoint hash file = none) (lwip : Nat → Int) (errno : Int) :
    netSetsockopt hash file lwip errno = none := by
  simp [netSetsockopt, h]

theorem sysNetCall_of_none {net : List SocketEndpoint → Nat → Option Int}
    (hlookup : fdLookup ns.conn p fd = some (conn₁, file)) (hnet : net ns.socketHash file = none) :
    sysNetCall net ns p fd = none := by
  simp [sysNetCall, hlookup, hnet]

theorem sysAccept_of_none (hlookup : fdLookup ns.conn p fd = some (conn₁, file))
    (h : netGetConnectionEndpoint ns.socketHash file = none) (accepted : Nat → Except Int Nat)
    (mem : Bool) (alloc : Option Nat) (garbage copyAddr copyLen : Int) :
    sysAccept ns p fd accepted mem alloc garbage copyAddr copyLen = none := by
  simp [sysAccept, hlookup, netAccept, h]

theorem sysRecvfrom_of_none (hlookup : fdLookup ns.conn p fd = some (conn₁, file))
    (h : netGetConnectionEndpoint ns.socketHash file = none) {nbytes : Nat} (hn : 0 < nbytes)
    (M : Space) (pgtab : Nat) (recv : Nat → Nat → RecvResult) (stg : Nat → UInt8)
    (errno : Int) (va : Nat) (copyAddr copyLen : Int) :
    sysRecvfrom ns M pgtab p fd recv (some stg) errno va nbytes copyAddr copyLen = none := by
  have hnet : netRecvfromFile ns.socketHash file M pgtab recv (some stg) errno va nbytes = none := by
    simp [netRecvfromFile, h, Nat.pos_iff_ne_zero.mp hn]
  simp [sysRecvfrom, hlookup, hnet]

theorem sysSendto_of_none (hlookup : fdLookup ns.conn p fd = some (conn₁, file))
    (h : netGetConnectionEndpoint ns.socketHash file = none) {M : Space} {pgtab va nbytes : Nat}
    {chunk : List UInt8} (hn : 0 < nbytes)
    (hcopy : vmSpaceCopyIn M pgtab va (min nbytes pageSize) = some (.ok chunk))
    (sent : Nat → Nat → SendResult) (errno : Int) :
    sysSendto ns M pgtab p fd sent true errno va nbytes = none := by
  have hnet : netSendtoFile ns.socketHash file M pgtab sent true errno va nbytes = none := by
    simp [netSendtoFile, h, Nat.pos_iff_ne_zero.mp hn, hcopy]
  exact sysNetCall_of_none hlookup (by simp [hnet])

end NoEndpoint

/-! ## `sys_accept` and `sys_recvfrom` -/

/-- `net_accept` sets `*fstore` only on the path that returns 0. -/
theorem netAccept_fstore {ns ns₁ : NetState} {file c : Nat} {accepted : Nat → Except Int Nat}
    {mem : Bool} {alloc : Option Nat} {garbage r : Int}
    (h : netAccept ns file accepted mem alloc garbage = some (ns₁, r, some c)) : r = 0 := by
  unfold netAccept at h
  split at h
  · cases h
  · split at h
    · cases h
    · split at h
      · cases h
      · cases h
      · split at h
        · cases h
        · cases h
          rfl

@[simp] theorem tables_netNewSocket (ns : NetState) (c sock : Nat) :
    (netNewSocket ns c sock).conn.tables = ns.conn.tables := by
  unfold netNewSocket netSetConnectionEndpoint
  split <;> rfl

theorem netAccept_slot {ns ns₁ : NetState} {file : Nat} {accepted : Nat → Except Int Nat}
    {mem : Bool} {alloc f : Option Nat} {garbage r : Int}
    (h : netAccept ns file accepted mem alloc garbage = some (ns₁, r, f)) :
    ns₁.conn.slot = ns.conn.slot := by
  unfold netAccept at h
  split at h
  · cases h
  · split at h
    · cases h
      rfl
    · split at h
      · cases h
      · cases h
        rfl
      · split at h
        · cases h
          rfl
        · cases h
          exact ConnState.slot_eq_of_tables_eq (tables_netNewSocket _ _ _)

/-- What `sys_accept` returns and leaves: a slot that held a descriptor still holds it, and a
result that is not an error is 0, whichever slot `fd_alloc` filled. -/
theorem sysAccept_result {ns ns' : NetState} {p n : Nat} {fd : Int}
    {accepted : Nat → Except Int Nat} {mem : Bool} {alloc : Option Nat}
    {garbage copyAddr copyLen r : Int} {d : ConnectionDesc} (hslot : ns.conn.slot p n = some d)
    (h : sysAccept ns p fd accepted mem alloc garbage copyAddr copyLen = some (ns', r)) :
    ns'.conn.slot p n = some d ∧ (0 ≤ r → r = 0) := by
  unfold sysAccept at h
  split at h
  · cases h
    exact ⟨hslot, fun hr => absurd hr (by simp [eBadF])⟩
  · rename_i conn₁ sockf hlookup
    have hslot₁ : conn₁.slot p n = some d := by
      rw [(fdLookup_spec hlookup).1, slot_connectionRef]
      exact hslot
    split at h
    · cases h
    · rename_i ns₁ connFd connf hacc
      have hslot₂ : ns₁.conn.slot p n = some d := by
        rw [netAccept_slot hacc]
        exact hslot₁
      split at h
      · -- `net_accept` failed: only the reference on the listening socket is dropped
        rename_i hneg
        obtain ⟨conn₂, hunref, hs⟩ := Option.map_eq_some_iff.mp h
        cases hs
        refine ⟨?_, fun hr => absurd hr (by omega)⟩
        rw [ConnState.slot_eq_of_tables_eq (tables_of_connectionUnref hunref)]
        exact hslot₂
      · split at h
        · cases h
        · rename_i hnonneg c
          have hzero : connFd = 0 := netAccept_fstore hacc
          obtain ⟨conn₂, hunref₂, h⟩ := Option.bind_eq_some_iff.mp h
          obtain ⟨conn₃, hunref₃, hs⟩ := Option.map_eq_some_iff.mp h
          cases hs
          refine ⟨?_, fun hr => ?_⟩
          · rw [ConnState.slot_eq_of_tables_eq (tables_of_connectionUnref hunref₃),
              ConnState.slot_eq_of_tables_eq (tables_of_connectionUnref hunref₂)]
            exact fdAlloc_slot_of_some hslot₂
          · -- every other result is an error of `fd_alloc` or of a copy-out
            split_ifs at hr ⊢ <;> omega

/-- `sys_recvfrom` after `net_recvfrom` failed: it returns with the reference of its
`fd_lookup` still taken. -/
theorem sysRecvfrom_of_error {ns : NetState} {M M₁ : Space} {pgtab p : Nat} {fd : Int}
    {recv : Nat → Nat → RecvResult} {staging : Option (Nat → UInt8)} {errno : Int}
    {va nbytes : Nat} {conn₁ : ConnState} {file : Nat} {nread : Int}
    (hlookup : fdLookup ns.conn p fd = some (conn₁, file))
    (hrecv : netRecvfromFile ns.socketHash file M pgtab recv staging errno va nbytes =
      some (M₁, nread)) (hneg : nread < 0) (copyAddr copyLen : Int) :
    sysRecvfrom ns M pgtab p fd recv staging errno va nbytes copyAddr copyLen =
      some ({ ns with conn := conn₁ }, M₁, nread) := by
  simp [sysRecvfrom, hlookup, hrecv, hneg]

/-- The socket calls on a descriptor, against what they are meant to do. On a descriptor whose
Connection has no socket endpoint, `sys_bind`, `sys_listen`, `sys_connect`, `sys_setsockopt` and
`sys_accept` dereference the `NULL` endpoint, as do `sys_recvfrom` and `sys_sendto` once they
move a byte. `sys_accept` returns 0 on success, while every slot that held a descriptor still
holds it. A failed `net_recvfrom` leaves the reference of `sys_recvfrom`'s lookup taken, one
above the slots. -/
theorem socket_calls_mishandle_descriptors :
    (∀ (ns : NetState) (p : Nat) (fd : Int) (conn₁ : ConnState) (file : Nat),
      fdLookup ns.conn p fd = some (conn₁, file) →
      netGetConnectionEndpoint ns.socketHash file = none →
      (∀ (lwip : Nat → Int) (errno : Int),
        sysBind ns p fd lwip errno = none ∧ sysListen ns p fd lwip errno = none ∧
          sysConnect ns p fd lwip errno = none ∧ sysSetsockopt ns p fd lwip errno = none) ∧
      (∀ accepted mem alloc garbage copyAddr copyLen,
        sysAccept ns p fd accepted mem alloc garbage copyAddr copyLen = none) ∧
      (∀ M pgtab recv stg errno va nbytes copyAddr copyLen, 0 < nbytes →
        sysRecvfrom ns M pgtab p fd recv (some stg) errno va nbytes copyAddr copyLen = none) ∧
      (∀ M pgtab sent errno va nbytes chunk, 0 < nbytes →
        vmSpaceCopyIn M pgtab va (min nbytes pageSize) = some (.ok chunk) →
        sysSendto ns M pgtab p fd sent true errno va nbytes = none)) ∧
    (∀ ns p fd accepted mem alloc garbage copyAddr copyLen ns' r n d,
      ns.conn.slot p n = some d →
      sysAccept ns p fd accepted mem alloc garbage copyAddr copyLen = some (ns', r) →
      ns'.conn.slot p n = some d ∧ (0 ≤ r → r = 0)) ∧
    (∀ ns M pgtab p fd recv staging errno va nbytes copyAddr copyLen conn₁ file M₁ nread,
      fdLookup ns.conn p fd = some (conn₁, file) →
      netRecvfromFile ns.socketHash file M pgtab recv staging errno va nbytes = some (M₁, nread) →
      nread < 0 →
      sysRecvfrom ns M pgtab p fd recv staging errno va nbytes copyAddr copyLen =
          some ({ ns with conn := connectionRef ns.conn file }, M₁, nread) ∧
        (RefInv ns.conn → ¬ RefInv (connectionRef ns.conn file))) := by
  refine ⟨?_, ?_, ?_⟩
  · intro ns p fd conn₁ file hlookup h
    refine ⟨fun lwip errno => ⟨?_, ?_, ?_, ?_⟩, sysAccept_of_none hlookup h,
      fun M pgtab recv stg errno va nbytes copyAddr copyLen hn =>
        sysRecvfrom_of_none hlookup h hn M pgtab recv stg errno va copyAddr copyLen,
      fun M pgtab sent errno va nbytes chunk hn hcopy =>
        sysSendto_of_none hlookup h hn hcopy sent errno⟩
    · exact sysNetCall_of_none hlookup (netCall_of_none h lwip errno)
    · exact sysNetCall_of_none hlookup (netCall_of_none h lwip errno)
    · exact sysNetCall_of_none hlookup (netCall_of_none h lwip errno)
    · exact sysNetCall_of_none hlookup (netSetsockopt_of_none h lwip errno)
  · intro ns p fd accepted mem alloc garbage copyAddr copyLen ns' r n d hslot h
    exact sysAccept_result hslot h
  · intro ns M pgtab p fd recv staging errno va nbytes copyAddr copyLen conn₁ file M₁ nread
      hlookup hrecv hneg
    obtain ⟨hconn₁, -, d, hslot, rfl⟩ := fdLookup_spec hlookup
    refine ⟨?_, fun hinv => ?_⟩
    · rw [sysRecvfrom_of_error hlookup hrecv hneg, hconn₁]
    · obtain ⟨hp, hn⟩ := ConnState.slot_some_lt hslot
      obtain ⟨conn, hconn, -⟩ := hinv.live hp hn hslot
      exact not_refInv_connectionRef hinv hconn

/-! ## `sys_socket`, and the close of its last descriptor -/

/-- The new socket's Connection: out of the pool with type `CONNECTION_TYPE_SOCKET`, and the one
reference `net_set_connection_endpoint` takes. -/
theorem conn_netNewSocket (ns : NetState) (c sock : Nat) :
    (netNewSocket ns c sock).conn =
      connectionRef (ns.conn.setConnection c (some ⟨.socket, 0, none⟩)) c := by
  simp [netNewSocket, netSetConnectionEndpoint, connectionAlloc, connectionRef]

/-- What `net_socket` can do: fail and leave the state, or open a socket on the Connection the
pool hands out. -/
theorem netSocket_cases {ns ns₁ : NetState} {mem : Bool} {lwip : Except Int Nat}
    {alloc file : Option Nat} {r : Int} (h : netSocket ns mem lwip alloc = some (ns₁, r, file)) :
    (ns₁ = ns ∧ file = none) ∨
      ∃ c sock, lwip = .ok sock ∧ alloc = some c ∧ ns₁ = netNewSocket ns c sock ∧ r = 0 ∧
        file = some c := by
  unfold netSocket at h
  split at h
  · cases h
  · cases h
    exact .inl ⟨rfl, rfl⟩
  · split at h
    · cases h
      exact .inl ⟨rfl, rfl⟩
    · rename_i sock
      split at h
      · cases h
        exact .inl ⟨rfl, rfl⟩
      · rename_i c
        cases h
        exact .inr ⟨c, sock, rfl, rfl, rfl, rfl, rfl⟩

/-- `sys_socket` keeps `RefInv`: the reference `net_set_connection_endpoint` takes is handed over
to the new descriptor. -/
theorem RefInv.newSocket {ns ns' : NetState} (hinv : RefInv ns.conn) (hwf : TablesWF ns.conn)
    {p : Nat} {mem : Bool} {lwip : Except Int Nat} {alloc : Option Nat} {r : Int}
    (hp : p < ns.conn.tables.length) (hfree : ∀ c ∈ alloc, ns.conn.connections c = none)
    (h : sysSocket ns p mem lwip alloc = some (ns', r)) :
    RefInv ns'.conn ∧ TablesWF ns'.conn ∧ ns'.conn.tables.length = ns.conn.tables.length := by
  unfold sysSocket at h
  split at h
  · cases h
  rename_i ns₁ r₁ file hsock
  rcases netSocket_cases hsock with ⟨rfl, rfl⟩ | ⟨c, sock, rfl, rfl, rfl, rfl, rfl⟩
  · split at h
    · cases h
      exact ⟨hinv, hwf, rfl⟩
    · cases h
  · rw [if_neg (by simp)] at h
    obtain ⟨conn₂, hunref, hs⟩ := Option.map_eq_some_iff.mp h
    cases hs
    rw [conn_netNewSocket] at hunref
    have hc : (ns.conn.setConnection c (some ⟨.socket, 0, none⟩)).connections c =
        some ⟨.socket, 0, none⟩ := by
      simp
    exact (hinv.setNew (hfree c rfl) .socket none).handOff (hwf.of_tables_eq rfl) hp hc hunref

/-- A socket outlives its descriptors. From any state where `RefInv` holds, a `sys_socket` that
gets descriptor `i` and then `fd_close` of `i` put the Connection back in the pool with no slot
that refers to it; and along every run after that, its endpoint stays in `socket_hash` and its
lwIP socket stays open. -/
theorem socket_outlives_descriptors {ns ns' : NetState} {p c sock : Nat} {i : Int}
    (hinv : RefInv ns.conn) (hwf : TablesWF ns.conn) (hp : p < ns.conn.tables.length)
    (hfree : ns.conn.connections c = none)
    (h : sysSocket ns p true (.ok sock) (some c) = some (ns', i)) (hi : 0 ≤ i) :
    ∃ conn', fdClose ns'.conn p i = some (conn', 0) ∧ conn'.connections c = none ∧
      conn'.refsTo c = 0 ∧
      ∀ ns'', Relation.ReflTransGen NetStep { ns' with conn := conn' } ns'' →
        ⟨c, sock⟩ ∈ ns''.socketHash ∧ sock ∈ ns''.lwipOpen := by
  obtain ⟨hinv', -, -⟩ := RefInv.newSocket hinv hwf hp (by simpa using hfree) h
  have hsock : netSocket ns true (.ok sock) (some c) = some (netNewSocket ns c sock, 0, some c) :=
    rfl
  simp only [sysSocket, hsock, ne_eq, not_true_eq_false, if_false] at h
  obtain ⟨conn₂, hunref, hs⟩ := Option.map_eq_some_iff.mp h
  cases hs
  dsimp only at hinv' hi ⊢
  rw [conn_netNewSocket, fdAlloc_connectionRef] at hunref hi ⊢
  dsimp only at hi ⊢
  -- `t`: the Connection out of the pool, before `net_set_connection_endpoint`'s reference
  generalize ht : ns.conn.setConnection c (some ⟨.socket, 0, none⟩) = t at hunref hi ⊢
  have htab : t.tables = ns.conn.tables := by rw [← ht]; rfl
  have hct : t.connections c = some ⟨.socket, 0, none⟩ := by rw [← ht]; simp
  have hwft : TablesWF t := hwf.of_tables_eq htab
  have hpt : p < t.tables.length := htab ▸ hp
  -- `fd_alloc` succeeded, since it returned `i ≥ 0`: slot `j` holds the new socket
  have halloc : fdAlloc t p c 0 = ((fdAlloc t p c 0).1, (fdAlloc t p c 0).2) := rfl
  rcases fdAlloc_cases halloc with ⟨-, hneg⟩ | ⟨j, -, hfind, hX, hj⟩
  · omega
  obtain ⟨hjmax, -⟩ := fdFindFree_spec hfind
  rw [hX] at hunref
  rw [hj]
  have hcu : (connectionRef (t.setSlot p j (some ⟨c, false⟩)) c).connections c =
      some ⟨.socket, 1, none⟩ := by
    simp [connectionRef, hct]
  -- `sys_socket`'s own `connection_unref` leaves the descriptor's reference alone
  rw [connectionUnref_ref hcu (by decide)] at hunref
  cases hunref
  have hslot : (connectionRef (t.setSlot p j (some ⟨c, false⟩)) c).slot p (j : Int).toNat =
      some ⟨c, false⟩ := by
    rw [Int.toNat_natCast, slot_connectionRef, ConnState.slot_setSlot hpt]
    simp [slot_lt hwft hpt hjmax]
  have hclose := fdClose_last (by omega) (by simp only [openMax] at hjmax ⊢; omega) hslot hcu rfl
  refine ⟨_, hclose, by simp, ?_, fun ns'' steps => ?_⟩
  · -- `RefInv` after the close: a Connection back in the pool has no slot
    have hwf' : TablesWF (connectionRef (t.setSlot p j (some ⟨c, false⟩)) c) :=
      (hwft.setSlot _).of_tables_eq (tables_connectionRef _ _)
    have hp' : p < (connectionRef (t.setSlot p j (some ⟨c, false⟩)) c).tables.length := by
      rw [tables_connectionRef, ConnState.length_setSlot]
      exact hpt
    obtain ⟨hinvc, -, -⟩ := hinv'.closeFd hwf' hp' hclose
    have hc := hinvc c
    simp only [ConnState.connections_setConnection, Function.update_self] at hc
    exact hc
  · -- the endpoint and the lwIP socket stay along every later run
    have hg := NetState.Grows.run steps
    refine ⟨hg.1.subset ?_, hg.2.subset ?_⟩
    · simp [netNewSocket, netSetConnectionEndpoint]
    · simp [netNewSocket, netSetConnectionEndpoint]

/-- One process with `fd_init`'s table: socket 5 on Connection 0 gets descriptor 0. -/
theorem socket_outlives_descriptors_boot :
    ∃ ns', sysSocket ⟨⟨fun _ => none, [fdInit]⟩, [], []⟩ 0 true (.ok 5) (some 0) = some (ns', 0) ∧
      ∃ conn', fdClose ns'.conn 0 0 = some (conn', 0) ∧ conn'.connections 0 = none ∧
        conn'.refsTo 0 = 0 ∧
        ∀ ns'', Relation.ReflTransGen NetStep { ns' with conn := conn' } ns'' →
          ⟨0, 5⟩ ∈ ns''.socketHash ∧ 5 ∈ ns''.lwipOpen := by
  obtain ⟨hinv, hwf, -⟩ := RefInv.create refInv_connInit.1 refInv_connInit.2
  obtain ⟨ns', h⟩ : ∃ ns', sysSocket ⟨⟨fun _ => none, [fdInit]⟩, [], []⟩ 0 true (.ok 5) (some 0) =
      some (ns', 0) := ⟨_, rfl⟩
  exact ⟨ns', h, socket_outlives_descriptors hinv hwf (by decide) rfl h le_rfl⟩

end Argentum.Net
