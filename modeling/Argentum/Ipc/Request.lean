import Argentum.Core.Mailbox
import Argentum.Ipc.Transfer
import Argentum.Lib.ListCount

/-!
# Argentum.Ipc.Request

The life of a request between a process and a service. `connection_send` and
`connection_sendv` of `kernel/ipc/connection.c` build a request with `request_create`, take a
second reference with `request_dup`, pass its address through the mailbox of the connection's
endpoint and wait on the request's semaphore. A service task (`fs_service_task` of
`kernel/fs/service.c`, `pipe_service_task` of `kernel/pipe.c`) takes the address from the
mailbox with `endpoint_receive`, reads and writes the sender's memory with `request_read` and
`request_write`, and ends with `request_reply` (`kernel/ipc/request.c`): it stores the result,
puts the semaphore and drops its reference. The sender takes the semaphore, reads the result and
drops the last reference, which frees the request.

`IpcState` holds the requests by address, the endpoints' mailboxes (the rings of pointers of
`Argentum.Core.Mailbox`), the tasks that call `connection_send` and the service tasks, and
memory. Each `IpcEvent` is one step of one task, taken atomically: a call up to its mailbox
send (nothing else can see the request before it is sent), one pass of `k_mailbox_timed_send`
or of the semaphore wait, an `endpoint_receive`, a `request_read` or `request_write`, and
`request_reply` cut after its `k_semaphore_put`, where the sender may run before the service
drops its reference. A blocked pass leaves the state as it is: the task sleeps and tries again
when woken. `ipcStep` is `none` where the kernel panics or an assertion fails.

A request goes through six `Stage`s: sending, queued, serving, replied, then answered (the
service dropped its reference first) or collected (the sender did). `IpcState.view` counts who
holds an address; `IpcInv` says each live request is at one stage, held exactly as that stage
says, and no one holds a freed address (`IpcInv.step`). So every reachable state counts its
references right (`ipc_refcount_holders`), and the kernel panics only on a timeout, on memory
running out for the iovecs, or on a failed copy (`ipc_panics_only_on_timeouts`). Seen through
`IpcState.rpc`, every step is a step of `Rpc`, the calls that return what their one reply
said (`ipc_refines_rpc`).
-/

namespace Argentum.Ipc

open Argentum.Core Argentum.Mm

/-! ## Requests -/

/-- The fields of `struct Request` that its life reads and writes, with the iovecs and cursors
of `Request`. `r` is `none` until `request_reply` stores it: `k_malloc` leaves it unset. -/
structure ReqObj where
  refCount : Nat
  /-- The count of `req->sem`. -/
  sem : Nat
  r : Option Int
  process : Option Nat
  connection : Option Nat
  xfer : Request
  deriving DecidableEq, Repr

/-- `request_create()`, on the block `k_malloc` returned. -/
def requestCreate : ReqObj :=
  ⟨1, 0, none, none, none, ⟨[], 0, 0, [], 0, 0, 0⟩⟩

/-- `request_dup(req)`. -/
def requestDup (o : ReqObj) : ReqObj := { o with refCount := o.refCount + 1 }

/-- `request_destroy(req)`: `k_assert(req->ref_count > 0)`, then the process and connection are
cleared and a reference dropped; the last one frees the request (`some none`). -/
def requestDestroy (o : ReqObj) : Option (Option ReqObj) :=
  if o.refCount = 0 then none
  else if o.refCount = 1 then some none
  else some (some { o with connection := none, process := none, refCount := o.refCount - 1 })

/-- `req->r = r; k_semaphore_put(&req->sem);`, the part of `request_reply` before its
`request_destroy`. -/
def requestReplyPut (o : ReqObj) (v : Int) : ReqObj := { o with r := some v, sem := o.sem + 1 }

/-- `request_reply(req, r)`. -/
def requestReply (o : ReqObj) (v : Int) : Option (Option ReqObj) :=
  requestDestroy (requestReplyPut o v)

/-- What `connection_send` and `connection_sendv` store in a new request: the iovec arrays (one
iovec each for `connection_send`, none for a NULL or empty message), the connection, and the
current process, whose page table the transfers use. -/
def connectionSendSetup (o : ReqObj) (c p pgtab : Nat) (sendIov recvIov : List Iovec) :
    ReqObj :=
  { o with
    xfer := { o.xfer with sendIov, recvIov, pgtab }
    connection := some c
    process := some p }

/-! ## Pointers through a mailbox -/

/-- The bytes of the pointer `req` that `k_mailbox_timed_send(&mbox, &req, ...)` copies, least
significant first. -/
def ptrBytes (a : Nat) : Nat → UInt8 := fun i => UInt8.ofNat (a / 256 ^ i)

/-- The pointer that `endpoint_receive(endpoint, &req)` stores from the bytes it copies. -/
def ptrOfBytes (bytes : List UInt8) : Nat := bytes.foldr (fun b acc => b.toNat + 256 * acc) 0

/-- A pointer sent through a mailbox of `sizeof(void *)` bytes comes out as it went in. -/
theorem ptrOfBytes_ptrBytes {a : Nat} (ha : a < 2 ^ 32) :
    ptrOfBytes (messageBytes 4 (ptrBytes a)) = a := by
  simp only [ptrOfBytes, messageBytes, ptrBytes, List.range_succ, List.range_zero,
    List.nil_append, List.cons_append, List.map_cons, List.map_nil, List.foldr_cons,
    List.foldr_nil, UInt8.toNat_ofNat', Nat.reducePow, pow_zero, pow_one, Nat.div_one]
  omega

/-! ## Tasks and services -/

/-- Where a task stands in `connection_send`. -/
inductive Client
  /-- Out of the call. -/
  | idle
  /-- In `k_mailbox_timed_send`, passing the request at `req` to endpoint `ep`. -/
  | sending (req ep : Nat)
  /-- In `k_semaphore_timed_get` on the semaphore of the request at `req`. -/
  | waiting (req : Nat)
  /-- The call returned `r`. -/
  | returned (r : Int)
  deriving DecidableEq, Repr

/-- Where a service task stands in its loop. -/
inductive Service
  /-- In `endpoint_receive` on endpoint `ep`. -/
  | receiving (ep : Nat)
  /-- Handling the request at `req`, taken from endpoint `ep`. -/
  | serving (ep req : Nat)
  /-- In `request_reply`, past its `k_semaphore_put`. -/
  | replying (ep req : Nat)
  deriving DecidableEq, Repr

namespace Client

/-- A task that is not in `connection_send`. -/
def Free : Client → Prop
  | .idle | .returned _ => True
  | _ => False

/-- The endpoint a task is sending to. -/
def ep? : Client → Option Nat
  | .sending _ ep => some ep
  | _ => none

def sendingOn (a : Nat) : Client → Bool
  | .sending r _ => r == a
  | _ => false

def waitingOn (a : Nat) : Client → Bool
  | .waiting r => r == a
  | _ => false

end Client

namespace Service

/-- The endpoint a service task serves. -/
def ep : Service → Nat
  | .receiving ep | .serving ep _ | .replying ep _ => ep

def servingOn (a : Nat) : Service → Bool
  | .serving _ r => r == a
  | _ => false

def replyingOn (a : Nat) : Service → Bool
  | .replying _ r => r == a
  | _ => false

end Service

/-- The requests by address, the mailboxes of the endpoints, the tasks that send, the service
tasks, and memory. -/
structure IpcState where
  reqs : Nat → Option ReqObj
  mbox : List KMailBox
  clients : List Client
  services : List Service
  space : Space

/-- One step of one task. -/
inductive IpcEvent
  /-- Task `t` calls `connection_send` on connection `c`, whose endpoint is `ep` (`none`: NULL),
  for process `p` with page table `pgtab`; `k_malloc` gives the request the block at `alloc`
  (`none`: out of memory), and the iovec arrays if `iovOk`. -/
  | call (t c : Nat) (ep : Option Nat) (p pgtab : Nat) (sendIov recvIov : List Iovec)
      (alloc : Option Nat) (iovOk : Bool)
  /-- A pass of `k_mailbox_timed_send` by task `t`. -/
  | send (t : Nat)
  /-- `k_mailbox_timed_send` of task `t` times out. -/
  | sendTimeout (t : Nat)
  /-- A pass of `k_semaphore_timed_get` by task `t`, and the rest of its call. -/
  | collect (t : Nat)
  /-- `k_semaphore_timed_get` of task `t` times out. -/
  | collectTimeout (t : Nat)
  /-- A pass of `endpoint_receive` by service task `s`. -/
  | receive (s : Nat)
  /-- `request_read(req, msg, n)` by service task `s`. -/
  | read (s n : Nat)
  /-- `request_write(req, msg, n)` by service task `s`. -/
  | write (s : Nat) (msg : List UInt8)
  /-- `request_reply(req, v)` by service task `s`, up to its `k_semaphore_put`. -/
  | reply (s : Nat) (v : Int)
  /-- The `request_destroy` that ends `request_reply` of service task `s`. -/
  | release (s : Nat)

/-- The events a state allows: the task is in the call the event continues, and a new request
gets a block no live request has, at a 32-bit address. -/
def IpcEvent.Enabled (P : IpcState) : IpcEvent → Prop
  | .call t _ ep _ _ _ _ alloc _ =>
    (∃ c, P.clients[t]? = some c ∧ c.Free) ∧ (∀ e ∈ ep, e < P.mbox.length) ∧
      ∀ a ∈ alloc, P.reqs a = none ∧ a < 2 ^ 32
  | .send t | .sendTimeout t => ∃ a ep, P.clients[t]? = some (.sending a ep)
  | .collect t | .collectTimeout t => ∃ a, P.clients[t]? = some (.waiting a)
  | .receive s => ∃ ep, P.services[s]? = some (.receiving ep)
  | .read s _ | .write s _ | .reply s _ => ∃ ep a, P.services[s]? = some (.serving ep a)
  | .release s => ∃ ep a, P.services[s]? = some (.replying ep a)

namespace IpcState

/-- The request at `a` set to `o`. -/
def setReq (P : IpcState) (a : Nat) (o : Option ReqObj) : IpcState :=
  { P with reqs := Function.update P.reqs a o }

/-- Task `t` moved to `c`. -/
def setClient (P : IpcState) (t : Nat) (c : Client) : IpcState :=
  { P with clients := P.clients.set t c }

/-- Service task `s` moved to `x`. -/
def setService (P : IpcState) (s : Nat) (x : Service) : IpcState :=
  { P with services := P.services.set s x }

/-- The mailbox of endpoint `ep` set to `mb`. -/
def setMbox (P : IpcState) (ep : Nat) (mb : KMailBox) : IpcState :=
  { P with mbox := P.mbox.set ep mb }

/-- Memory set to `M`. -/
def setSpace (P : IpcState) (M : Space) : IpcState := { P with space := M }

variable (P : IpcState)

@[simp] theorem setReq_reqs (a : Nat) (o : Option ReqObj) :
    (P.setReq a o).reqs = Function.update P.reqs a o := rfl
@[simp] theorem setReq_mbox (a : Nat) (o : Option ReqObj) : (P.setReq a o).mbox = P.mbox := rfl
@[simp] theorem setReq_clients (a : Nat) (o : Option ReqObj) :
    (P.setReq a o).clients = P.clients := rfl
@[simp] theorem setReq_services (a : Nat) (o : Option ReqObj) :
    (P.setReq a o).services = P.services := rfl
@[simp] theorem setClient_reqs (t : Nat) (c : Client) : (P.setClient t c).reqs = P.reqs := rfl
@[simp] theorem setClient_mbox (t : Nat) (c : Client) : (P.setClient t c).mbox = P.mbox := rfl
@[simp] theorem setClient_clients (t : Nat) (c : Client) :
    (P.setClient t c).clients = P.clients.set t c := rfl
@[simp] theorem setClient_services (t : Nat) (c : Client) :
    (P.setClient t c).services = P.services := rfl
@[simp] theorem setService_reqs (s : Nat) (x : Service) : (P.setService s x).reqs = P.reqs := rfl
@[simp] theorem setService_mbox (s : Nat) (x : Service) : (P.setService s x).mbox = P.mbox := rfl
@[simp] theorem setService_clients (s : Nat) (x : Service) :
    (P.setService s x).clients = P.clients := rfl
@[simp] theorem setService_services (s : Nat) (x : Service) :
    (P.setService s x).services = P.services.set s x := rfl
@[simp] theorem setMbox_reqs (ep : Nat) (mb : KMailBox) : (P.setMbox ep mb).reqs = P.reqs := rfl
@[simp] theorem setMbox_mbox (ep : Nat) (mb : KMailBox) :
    (P.setMbox ep mb).mbox = P.mbox.set ep mb := rfl
@[simp] theorem setMbox_clients (ep : Nat) (mb : KMailBox) :
    (P.setMbox ep mb).clients = P.clients := rfl
@[simp] theorem setMbox_services (ep : Nat) (mb : KMailBox) :
    (P.setMbox ep mb).services = P.services := rfl
@[simp] theorem setSpace_reqs (M : Space) : (P.setSpace M).reqs = P.reqs := rfl
@[simp] theorem setSpace_mbox (M : Space) : (P.setSpace M).mbox = P.mbox := rfl
@[simp] theorem setSpace_clients (M : Space) : (P.setSpace M).clients = P.clients := rfl
@[simp] theorem setSpace_services (M : Space) : (P.setSpace M).services = P.services := rfl

end IpcState

/-- One step; `none` where the kernel panics, an assertion fails or a NULL pointer is used. -/
def ipcStep (P : IpcState) : IpcEvent → Option IpcState
  | .call t c ep p pgtab sendIov recvIov alloc iovOk =>
    match ep, alloc with
    | none, _ => some (P.setClient t (.returned (-1)))
    | some _, none => some (P.setClient t (.returned (-eNoMem)))
    | some ep, some a =>
      -- `k_panic("out of memory")` when an iovec array cannot be allocated
      if (sendIov ≠ [] ∨ recvIov ≠ []) ∧ iovOk = false then none
      else
        let o := requestDup (connectionSendSetup requestCreate c p pgtab sendIov recvIov)
        some ((P.setReq a (some o)).setClient t (.sending a ep))
  | .send t =>
    match P.clients[t]? with
    | some (.sending a ep) =>
      match P.mbox[ep]? with
      | some mb =>
        let res := kMailboxTrySendLocked mb (ptrBytes a)
        if res.2 = 0 then some ((P.setMbox ep res.1).setClient t (.waiting a))
        else some P
      | none => none
    | _ => none
  | .sendTimeout _ => none
  | .collect t =>
    match P.clients[t]? with
    | some (.waiting a) =>
      match P.reqs a with
      | some o =>
        -- the task sleeps until the reply puts the semaphore
        if o.sem = 0 then some P
        else
          match o.r, requestDestroy { o with sem := o.sem - 1 } with
          | some v, some o' => some ((P.setReq a o').setClient t (.returned v))
          | _, _ => none
      | none => none
    | _ => none
  | .collectTimeout _ => none
  | .receive s =>
    match P.services[s]? with
    | some (.receiving ep) =>
      match P.mbox[ep]? with
      | some mb =>
        let res := kMailboxTryReceiveLocked mb
        match res.2.2 with
        | some bytes => some ((P.setMbox ep res.1).setService s (.serving ep (ptrOfBytes bytes)))
        | none => some P
      | none => none
    | _ => none
  | .read s n =>
    match P.services[s]? with
    | some (.serving _ a) =>
      match P.reqs a with
      | some o =>
        -- `vm_space_copy_in(req->process, ...)` dereferences the process
        if o.process = none then none
        else (requestRead P.space o.xfer n).map fun x => P.setReq a (some { o with xfer := x.1 })
      | none => none
    | _ => none
  | .write s msg =>
    match P.services[s]? with
    | some (.serving _ a) =>
      match P.reqs a with
      | some o =>
        if o.process = none then none
        else (requestWrite P.space o.xfer msg).map fun x =>
          (P.setReq a (some { o with xfer := x.2.1 })).setSpace x.1
      | none => none
    | _ => none
  | .reply s v =>
    match P.services[s]? with
    | some (.serving ep a) =>
      match P.reqs a with
      | some o =>
        some ((P.setReq a (some (requestReplyPut o v))).setService s (.replying ep a))
      | none => none
    | _ => none
  | .release s =>
    match P.services[s]? with
    | some (.replying ep a) =>
      match P.reqs a with
      | some o =>
        (requestDestroy o).map fun o' => (P.setReq a o').setService s (.receiving ep)
      | none => none
    | _ => none

/-- A state at boot: no request, each endpoint's mailbox as `endpoint_init` made it, every task
out of `connection_send`, every service task in `endpoint_receive` on an endpoint. -/
structure IpcState.Boot (P : IpcState) : Prop where
  reqs : ∀ a, P.reqs a = none
  mbox : ∀ mb ∈ P.mbox, ∃ buf, endpointInit buf = some mb
  clients : ∀ c ∈ P.clients, c = .idle
  services : ∀ s ∈ P.services, ∃ ep < P.mbox.length, s = .receiving ep

/-- The states that boot and steps reach. -/
inductive IpcReachable : IpcState → Prop
  | boot {P : IpcState} : P.Boot → IpcReachable P
  | step {P P' : IpcState} {e : IpcEvent} :
      IpcReachable P → e.Enabled P → ipcStep P e = some P' → IpcReachable P'

/-! ## Who holds an address -/

/-- For one address: the tasks sending the request there, the tasks waiting on it, the copies of
the address in mailboxes, and the service tasks serving it or replying to it. -/
@[ext] structure View where
  sending : Nat
  waiting : Nat
  mail : Nat
  serving : Nat
  replying : Nat
  deriving DecidableEq, Repr

namespace View

instance : Add View :=
  ⟨fun x y => ⟨x.sending + y.sending, x.waiting + y.waiting, x.mail + y.mail,
    x.serving + y.serving, x.replying + y.replying⟩⟩

instance : Zero View := ⟨⟨0, 0, 0, 0, 0⟩⟩

/-- The references the holders account for: a task sending a request holds its own and the one
`request_dup` took for the mailbox. -/
def total (v : View) : Nat := 2 * v.sending + v.waiting + v.mail + v.serving + v.replying

@[simp] theorem add_sending (x y : View) : (x + y).sending = x.sending + y.sending := rfl
@[simp] theorem add_waiting (x y : View) : (x + y).waiting = x.waiting + y.waiting := rfl
@[simp] theorem add_mail (x y : View) : (x + y).mail = x.mail + y.mail := rfl
@[simp] theorem add_serving (x y : View) : (x + y).serving = x.serving + y.serving := rfl
@[simp] theorem add_replying (x y : View) : (x + y).replying = x.replying + y.replying := rfl
@[simp] theorem zero_sending : (0 : View).sending = 0 := rfl
@[simp] theorem zero_waiting : (0 : View).waiting = 0 := rfl
@[simp] theorem zero_mail : (0 : View).mail = 0 := rfl
@[simp] theorem zero_serving : (0 : View).serving = 0 := rfl
@[simp] theorem zero_replying : (0 : View).replying = 0 := rfl
@[simp] theorem add_zero (x : View) : x + 0 = x := rfl
@[simp] theorem zero_add (x : View) : 0 + x = x := by ext <;> simp
@[simp] theorem mk_zero : (⟨0, 0, 0, 0, 0⟩ : View) = 0 := rfl

end View

/-- What one task holds of the address `a`. -/
def Client.view (a : Nat) (c : Client) : View :=
  ⟨if c.sendingOn a then 1 else 0, if c.waitingOn a then 1 else 0, 0, 0, 0⟩

/-- What one service task holds of the address `a`. -/
def Service.view (a : Nat) (s : Service) : View :=
  ⟨0, 0, 0, if s.servingOn a then 1 else 0, if s.replyingOn a then 1 else 0⟩

/-- The copies of the address `a` in a mailbox. -/
def mailCount (a : Nat) (mb : KMailBox) : Nat := mb.contents.countP fun m => ptrOfBytes m == a

/-- Who holds the address `a`. -/
def IpcState.view (P : IpcState) (a : Nat) : View where
  sending := P.clients.countP (·.sendingOn a)
  waiting := P.clients.countP (·.waitingOn a)
  mail := (P.mbox.map (mailCount a)).sum
  serving := P.services.countP (·.servingOn a)
  replying := P.services.countP (·.replyingOn a)

/-- The stages of a request's life, from `request_create` to its last `request_destroy`. -/
inductive Stage
  /-- Built and referenced twice; its task is in `k_mailbox_timed_send`. -/
  | sending
  /-- Its address is in a mailbox; its task waits on the semaphore. -/
  | queued
  /-- A service task handles it. -/
  | serving
  /-- Its result is stored and the semaphore put; the service has not dropped its reference. -/
  | replied
  /-- The service dropped its reference; the task has not taken the semaphore. -/
  | answered
  /-- The task took the result and dropped its reference; the service has not. -/
  | collected
  deriving DecidableEq, Repr

namespace Stage

/-- Who holds the request at each stage. -/
def view : Stage → View
  | .sending => ⟨1, 0, 0, 0, 0⟩
  | .queued => ⟨0, 1, 1, 0, 0⟩
  | .serving => ⟨0, 1, 0, 1, 0⟩
  | .replied => ⟨0, 1, 0, 0, 1⟩
  | .answered => ⟨0, 1, 0, 0, 0⟩
  | .collected => ⟨0, 0, 0, 0, 1⟩

/-- What the request holds at each stage: its references, its semaphore, its result, and, up to
the first `request_destroy`, its process. -/
def Holds : Stage → ReqObj → Prop
  | .sending, o | .queued, o | .serving, o =>
    o.refCount = 2 ∧ o.sem = 0 ∧ o.r = none ∧ o.process.isSome
  | .replied, o => o.refCount = 2 ∧ o.sem = 1 ∧ o.r.isSome ∧ o.process.isSome
  | .answered, o => o.refCount = 1 ∧ o.sem = 1 ∧ o.r.isSome
  | .collected, o => o.refCount = 1 ∧ o.sem = 0 ∧ o.r.isSome

theorem eq_sending {st : Stage} (h : 0 < st.view.sending) : st = .sending := by
  cases st <;> simp_all [view]

theorem eq_queued {st : Stage} (h : 0 < st.view.mail) : st = .queued := by
  cases st <;> simp_all [view]

theorem eq_serving {st : Stage} (h : 0 < st.view.serving) : st = .serving := by
  cases st <;> simp_all [view]

theorem of_waiting {st : Stage} (h : 0 < st.view.waiting) :
    st = .queued ∨ st = .serving ∨ st = .replied ∨ st = .answered := by
  cases st <;> simp_all [view]

theorem of_replying {st : Stage} (h : 0 < st.view.replying) : st = .replied ∨ st = .collected := by
  cases st <;> simp_all [view]

/-- At every stage the count of references is the number of holders. -/
theorem Holds.refCount {st : Stage} {o : ReqObj} (h : st.Holds o) : o.refCount = st.view.total := by
  cases st <;> simp only [Holds] at h <;> simp [h.1, view, View.total]

end Stage

/-- The address `a` is free and held by no one, or holds a request at a 32-bit address that is
at some stage, held exactly as that stage says. -/
def IpcState.AddrOk (P : IpcState) (a : Nat) : Prop :=
  match P.reqs a with
  | none => P.view a = 0
  | some o => a < 2 ^ 32 ∧ ∃ st : Stage, P.view a = st.view ∧ st.Holds o

/-- What every reachable state keeps: the mailboxes are rings of pointers, tasks and service
tasks use endpoints that exist, and every address is as `AddrOk` says. -/
structure IpcInv (P : IpcState) : Prop where
  mbox : ∀ mb ∈ P.mbox, MailboxInv mb ∧ mb.msgSize = 4
  client_ep : ∀ c ∈ P.clients, ∀ ep ∈ c.ep?, ep < P.mbox.length
  service_ep : ∀ s ∈ P.services, s.ep < P.mbox.length
  addr : ∀ a, P.AddrOk a

/-! ## How a step moves the holders -/

section Views

variable {P : IpcState}

@[simp] theorem view_setReq (a : Nat) (o : Option ReqObj) : (P.setReq a o).view = P.view := rfl

@[simp] theorem view_setSpace (M : Space) : (P.setSpace M).view = P.view := rfl

theorem view_setClient {t : Nat} (ht : t < P.clients.length) (c : Client) (a : Nat) :
    (P.setClient t c).view a + P.clients[t].view a = P.view a + c.view a := by
  have h₁ := ListCount.countP_set_add (p := (·.sendingOn a)) ht c
  have h₂ := ListCount.countP_set_add (p := (·.waitingOn a)) ht c
  ext <;> simp only [IpcState.view, IpcState.setClient_clients, IpcState.setClient_mbox,
    IpcState.setClient_services, Client.view, View.add_sending, View.add_waiting, View.add_mail,
    View.add_serving, View.add_replying] <;> omega

theorem view_setService {s : Nat} (hs : s < P.services.length) (x : Service) (a : Nat) :
    (P.setService s x).view a + P.services[s].view a = P.view a + x.view a := by
  have h₁ := ListCount.countP_set_add (p := (·.servingOn a)) hs x
  have h₂ := ListCount.countP_set_add (p := (·.replyingOn a)) hs x
  ext <;> simp only [IpcState.view, IpcState.setService_clients, IpcState.setService_mbox,
    IpcState.setService_services, Service.view, View.add_sending, View.add_waiting, View.add_mail,
    View.add_serving, View.add_replying] <;> omega

theorem view_setMbox {ep : Nat} (he : ep < P.mbox.length) (mb : KMailBox) (a : Nat) :
    (P.setMbox ep mb).view a + ⟨0, 0, mailCount a P.mbox[ep], 0, 0⟩ =
      P.view a + ⟨0, 0, mailCount a mb, 0, 0⟩ := by
  have h := ListCount.sum_map_set_add (f := mailCount a) he mb
  ext <;> simp only [IpcState.view, IpcState.setMbox_clients, IpcState.setMbox_mbox,
    IpcState.setMbox_services, View.add_sending, View.add_waiting, View.add_mail,
    View.add_serving, View.add_replying]
  omega

/-- A send to a mailbox with room adds one copy of the address sent. -/
theorem mailCount_trySend {mb : KMailBox} (hI : MailboxInv mb) (h4 : mb.msgSize = 4)
    (hroom : mb.size ≠ mb.capacity) {x : Nat} (hx : x < 2 ^ 32) (a : Nat) :
    mailCount a (kMailboxTrySendLocked mb (ptrBytes x)).1 =
      mailCount a mb + if x = a then 1 else 0 := by
  unfold mailCount
  rw [(hI.trySend _ hroom).2.2, List.countP_append, h4]
  simp [ptrOfBytes_ptrBytes hx]

/-- A receive from a mailbox with messages takes one copy of the address it returns. -/
theorem mailCount_tryReceive {mb : KMailBox} (hI : MailboxInv mb) (hsize : mb.size ≠ 0) :
    ∃ msg, (kMailboxTryReceiveLocked mb).2.2 = some msg ∧ ∀ a,
      mailCount a mb = mailCount a (kMailboxTryReceiveLocked mb).1 +
        if ptrOfBytes msg = a then 1 else 0 := by
  obtain ⟨-, -, msg, hmsg, hc⟩ := hI.tryReceive hsize
  refine ⟨msg, hmsg, fun a => ?_⟩
  unfold mailCount
  rw [hc, List.countP_cons]
  simp [Nat.add_comm]

theorem sendingOn_pos {t a ep : Nat} (hc : P.clients[t]? = some (.sending a ep)) :
    0 < (P.view a).sending :=
  List.countP_pos_iff.2 ⟨_, List.mem_of_getElem? hc, by simp [Client.sendingOn]⟩

theorem waitingOn_pos {t a : Nat} (hc : P.clients[t]? = some (.waiting a)) :
    0 < (P.view a).waiting :=
  List.countP_pos_iff.2 ⟨_, List.mem_of_getElem? hc, by simp [Client.waitingOn]⟩

theorem servingOn_pos {s ep a : Nat} (hs : P.services[s]? = some (.serving ep a)) :
    0 < (P.view a).serving :=
  List.countP_pos_iff.2 ⟨_, List.mem_of_getElem? hs, by simp [Service.servingOn]⟩

theorem replyingOn_pos {s ep a : Nat} (hs : P.services[s]? = some (.replying ep a)) :
    0 < (P.view a).replying :=
  List.countP_pos_iff.2 ⟨_, List.mem_of_getElem? hs, by simp [Service.replyingOn]⟩

theorem mail_pos {ep a : Nat} {mb : KMailBox} (hmb : P.mbox[ep]? = some mb)
    (hpos : 0 < mailCount a mb) : 0 < (P.view a).mail := by
  have hsum : mailCount a mb ≤ (P.mbox.map (mailCount a)).sum :=
    List.le_sum_of_mem (List.mem_map.2 ⟨mb, List.mem_of_getElem? hmb, rfl⟩)
  exact Nat.lt_of_lt_of_le hpos hsum

end Views

/-! ## Stages from holders -/

section Stages

variable {P : IpcState} {a : Nat}

/-- An address someone holds has a live request, at the stage its holders say. -/
theorem IpcState.AddrOk.stage (h : P.AddrOk a) (hv : P.view a ≠ 0) :
    ∃ o st, P.reqs a = some o ∧ a < 2 ^ 32 ∧ P.view a = Stage.view st ∧ st.Holds o := by
  unfold IpcState.AddrOk at h
  cases hr : P.reqs a with
  | none => rw [hr] at h; exact absurd h hv
  | some o =>
    rw [hr] at h
    obtain ⟨ha, st, hst, ho⟩ := h
    exact ⟨o, st, rfl, ha, hst, ho⟩

theorem View.ne_zero_of_sending {v : View} (h : 0 < v.sending) : v ≠ 0 :=
  fun h0 => by simp [h0] at h

theorem View.ne_zero_of_waiting {v : View} (h : 0 < v.waiting) : v ≠ 0 :=
  fun h0 => by simp [h0] at h

theorem View.ne_zero_of_mail {v : View} (h : 0 < v.mail) : v ≠ 0 :=
  fun h0 => by simp [h0] at h

theorem View.ne_zero_of_serving {v : View} (h : 0 < v.serving) : v ≠ 0 :=
  fun h0 => by simp [h0] at h

theorem View.ne_zero_of_replying {v : View} (h : 0 < v.replying) : v ≠ 0 :=
  fun h0 => by simp [h0] at h

/-- An address whose holders and request are those of a stage is as `AddrOk` says. -/
theorem IpcState.addrOk_of_stage {o : ReqObj} (st : Stage) (hr : P.reqs a = some o)
    (ha : a < 2 ^ 32) (hv : P.view a = st.view) (ho : st.Holds o) : P.AddrOk a := by
  unfold IpcState.AddrOk
  rw [hr]
  exact ⟨ha, st, hv, ho⟩

/-- An address nobody holds, with no request. -/
theorem IpcState.addrOk_of_free (hr : P.reqs a = none) (hv : P.view a = 0) : P.AddrOk a := by
  unfold IpcState.AddrOk
  rw [hr]
  exact hv

/-- A step that leaves an address's request and holders leaves it as it was. -/
theorem IpcState.AddrOk.congr {P' : IpcState} (h : P.AddrOk a) (hr : P'.reqs a = P.reqs a)
    (hv : P'.view a = P.view a) : P'.AddrOk a := by
  unfold IpcState.AddrOk at h ⊢
  rw [hr, hv]
  exact h

end Stages

/-! ## One step at a time -/

section Steps

variable {P P' : IpcState}

theorem forall_mem_set {α : Type} {p : α → Prop} {l : List α} {i : Nat} {x : α}
    (hl : ∀ y ∈ l, p y) (hx : p x) : ∀ y ∈ l.set i x, p y :=
  fun y hy => (List.mem_or_eq_of_mem_set hy).elim (hl y) fun h => h ▸ hx

theorem msgSize_trySend (mb : KMailBox) (m : Nat → UInt8) :
    (kMailboxTrySendLocked mb m).1.msgSize = mb.msgSize := by
  unfold kMailboxTrySendLocked
  split <;> rfl

theorem msgSize_tryReceive (mb : KMailBox) : (kMailboxTryReceiveLocked mb).1.msgSize = mb.msgSize := by
  unfold kMailboxTryReceiveLocked
  split <;> rfl

/-- A step that changes only tasks, without touching what they hold, keeps the invariant's
parts about mailboxes and endpoints. -/
theorem IpcInv.setClients {t : Nat} {c : Client} (hI : IpcInv P)
    (hc : ∀ ep ∈ c.ep?, ep < P.mbox.length) :
    ∀ x ∈ P.clients.set t c, ∀ ep ∈ x.ep?, ep < P.mbox.length :=
  forall_mem_set hI.client_ep hc

/-! ### `connection_send` -/

/-- What the start of `connection_send` can do: return at once, or build the request and go on
to send it. -/
theorem ipcStep_call {t c p pgtab : Nat} {ep alloc : Option Nat} {sIov rIov : List Iovec}
    {iovOk : Bool} (h : ipcStep P (.call t c ep p pgtab sIov rIov alloc iovOk) = some P') :
    (∃ r, P' = P.setClient t (.returned r)) ∨
      ∃ e a, ep = some e ∧ alloc = some a ∧
        P' = (P.setReq a (some (requestDup (connectionSendSetup requestCreate c p pgtab sIov rIov)))).setClient t (.sending a e) := by
  unfold ipcStep at h
  rcases ep with _ | e
  · exact Or.inl ⟨_, (Option.some.inj h).symm⟩
  · rcases alloc with _ | a
    · exact Or.inl ⟨_, (Option.some.inj h).symm⟩
    · simp only at h
      split at h
      · cases h
      · exact Or.inr ⟨e, a, rfl, rfl, (Option.some.inj h).symm⟩

theorem IpcInv.call (hI : IpcInv P) {t c p pgtab : Nat} {ep alloc : Option Nat}
    {sIov rIov : List Iovec} {iovOk : Bool}
    (he : (IpcEvent.call t c ep p pgtab sIov rIov alloc iovOk).Enabled P)
    (h : ipcStep P (.call t c ep p pgtab sIov rIov alloc iovOk) = some P') : IpcInv P' := by
  obtain ⟨⟨c₀, hc₀, hfree⟩, hep, halloc⟩ := he
  have ht : t < P.clients.length := (List.getElem?_eq_some_iff.1 hc₀).1
  have hold : P.clients[t] = c₀ := (List.getElem?_eq_some_iff.1 hc₀).2
  -- a task out of the call holds no address
  have hview₀ : ∀ b, c₀.view b = 0 := fun b => by
    cases c₀ <;> simp_all [Client.Free, Client.view, Client.sendingOn, Client.waitingOn]
  rcases ipcStep_call h with ⟨r, rfl⟩ | ⟨e, a, rfl, rfl, rfl⟩
  · -- `connection_send` returns at once: nobody's holdings change
    refine ⟨hI.mbox, hI.setClients (by simp [Client.ep?]), hI.service_ep, fun b => ?_⟩
    have hv := view_setClient ht (.returned r) b
    rw [hold, hview₀] at hv
    exact (hI.addr b).congr rfl (by simpa [Client.view, Client.sendingOn, Client.waitingOn] using hv)
  · obtain ⟨hfresh, ha⟩ := halloc a rfl
    set o := requestDup (connectionSendSetup requestCreate c p pgtab sIov rIov) with ho
    refine ⟨hI.mbox, hI.setClients (by simpa [Client.ep?] using hep), hI.service_ep, fun b => ?_⟩
    have hv := view_setClient (P := P.setReq a (some o)) ht (.sending a e) b
    simp only [IpcState.setReq_clients, hold, hview₀, view_setReq] at hv
    by_cases hb : b = a
    · -- the new request is at the first stage, held twice by its task
      subst hb
      have h0 : P.view b = 0 := by
        have := hI.addr b
        unfold IpcState.AddrOk at this
        rwa [hfresh] at this
      refine IpcState.addrOk_of_stage (o := o) .sending (by simp) ha ?_ ?_
      · ext <;> simp_all [IpcState.view, Client.view, Client.sendingOn, Client.waitingOn,
          Stage.view]
      · simp [ho, Stage.Holds, requestDup, connectionSendSetup, requestCreate]
    · refine (hI.addr b).congr (by simp [hb]) ?_
      ext <;> simp_all [IpcState.view, Client.view, Client.sendingOn, Client.waitingOn, Ne.symm hb]

/-! ### The mailbox send -/

/-- What a pass of `k_mailbox_timed_send` can do: store the address in a mailbox with room and
go on to wait, or find the mailbox full and sleep. -/
theorem ipcStep_send {t a ep : Nat} (hc : P.clients[t]? = some (.sending a ep))
    (h : ipcStep P (.send t) = some P') :
    ∃ mb, P.mbox[ep]? = some mb ∧
      ((kMailboxTrySendLocked mb (ptrBytes a)).2 = 0 ∧
        P' = (P.setMbox ep (kMailboxTrySendLocked mb (ptrBytes a)).1).setClient t (.waiting a) ∨
       P' = P) := by
  simp only [ipcStep, hc] at h
  cases hm : P.mbox[ep]? with
  | none => simp [hm] at h
  | some mb =>
    simp only [hm] at h
    refine ⟨mb, rfl, ?_⟩
    split at h
    · exact Or.inl ⟨‹_›, (Option.some.inj h).symm⟩
    · exact Or.inr (Option.some.inj h).symm

theorem IpcInv.send (hI : IpcInv P) {t a ep : Nat} (hc : P.clients[t]? = some (.sending a ep))
    (h : ipcStep P (.send t) = some P') : IpcInv P' := by
  obtain ⟨mb, hmb, ⟨hres, rfl⟩ | rfl⟩ := ipcStep_send hc h
  · have ht : t < P.clients.length := (List.getElem?_eq_some_iff.1 hc).1
    have he : ep < P.mbox.length := (List.getElem?_eq_some_iff.1 hmb).1
    have hold : P.clients[t] = .sending a ep := (List.getElem?_eq_some_iff.1 hc).2
    have hmbe : P.mbox[ep] = mb := (List.getElem?_eq_some_iff.1 hmb).2
    obtain ⟨hmI, hm4⟩ := hI.mbox mb (List.mem_of_getElem? hmb)
    have hroom : mb.size ≠ mb.capacity := fun hfull => by
      simp [kMailboxTrySendLocked, hfull, eAgain] at hres
    -- a task sends a request at its first stage
    have hpos := sendingOn_pos hc
    obtain ⟨o, st, hro, ha, hview, ho⟩ := (hI.addr a).stage (View.ne_zero_of_sending hpos)
    obtain rfl := Stage.eq_sending (hview ▸ hpos)
    refine ⟨forall_mem_set hI.mbox ⟨(hmI.trySend _ hroom).1, by rw [msgSize_trySend, hm4]⟩,
      forall_mem_set (fun c hc e he => by simpa using hI.client_ep c hc e he)
        (by simp [Client.ep?]), by simpa using hI.service_ep, fun b => ?_⟩
    have hv₁ := view_setMbox he (kMailboxTrySendLocked mb (ptrBytes a)).1 b
    have hv₂ := view_setClient
      (P := P.setMbox ep (kMailboxTrySendLocked mb (ptrBytes a)).1) ht (.waiting a) b
    simp only [IpcState.setMbox_clients, hold, hmbe, mailCount_trySend hmI hm4 hroom ha b,
      View.ext_iff, View.add_sending, View.add_waiting, View.add_mail, View.add_serving,
      View.add_replying, Client.view, Client.sendingOn, Client.waitingOn] at hv₁ hv₂
    by_cases hb : b = a
    · -- its address is in the mailbox: the request is queued
      subst hb
      refine IpcState.addrOk_of_stage (o := o) .queued (by simpa using hro) ha ?_ ho
      simp only [View.ext_iff, Stage.view] at hview ⊢
      simp at hv₁ hv₂
      omega
    · refine (hI.addr b).congr (by simp) ?_
      simp [Ne.symm hb] at hv₁ hv₂
      ext <;> omega
  · exact hI

/-! ### The semaphore wait -/

/-- What a pass of `k_semaphore_timed_get` can do: sleep while the semaphore is down, or take
it, read the result and drop the task's reference. -/
theorem ipcStep_collect {t a : Nat} (hc : P.clients[t]? = some (.waiting a))
    (h : ipcStep P (.collect t) = some P') :
    ∃ o, P.reqs a = some o ∧ (o.sem = 0 ∧ P' = P ∨
      ∃ v o', o.sem ≠ 0 ∧ o.r = some v ∧ requestDestroy { o with sem := o.sem - 1 } = some o' ∧
        P' = (P.setReq a o').setClient t (.returned v)) := by
  simp only [ipcStep, hc] at h
  cases hr : P.reqs a with
  | none => simp [hr] at h
  | some o =>
    simp only [hr] at h
    refine ⟨o, rfl, ?_⟩
    split at h
    · exact Or.inl ⟨‹_›, (Option.some.inj h).symm⟩
    · split at h
      · exact Or.inr ⟨_, _, ‹_›, ‹_›, ‹_›, (Option.some.inj h).symm⟩
      · cases h

theorem IpcInv.collect (hI : IpcInv P) {t a : Nat} (hc : P.clients[t]? = some (.waiting a))
    (h : ipcStep P (.collect t) = some P') : IpcInv P' := by
  obtain ⟨o, hro, ⟨-, rfl⟩ | ⟨v, o', hsem, hrv, hdes, rfl⟩⟩ := ipcStep_collect hc h
  · exact hI
  have ht : t < P.clients.length := (List.getElem?_eq_some_iff.1 hc).1
  have hold : P.clients[t] = .waiting a := (List.getElem?_eq_some_iff.1 hc).2
  have hpos := waitingOn_pos hc
  obtain ⟨o₁, st, hro₁, ha, hview, ho⟩ := (hI.addr a).stage (View.ne_zero_of_waiting hpos)
  rw [hro] at hro₁
  cases hro₁
  refine ⟨hI.mbox, hI.setClients (by simp [Client.ep?]), hI.service_ep, fun b => ?_⟩
  have hv := view_setClient (P := P.setReq a o') ht (.returned v) b
  simp only [IpcState.setReq_clients, hold, view_setReq, View.ext_iff, View.add_sending,
    View.add_waiting, View.add_mail, View.add_serving, View.add_replying, Client.view,
    Client.sendingOn, Client.waitingOn] at hv
  by_cases hb : b = a
  · subst hb
    simp only [beq_self_eq_true, if_true, Bool.false_eq_true, if_false] at hv
    -- the semaphore is up only once the result is in: the request was replied or answered
    rcases Stage.of_waiting (hview ▸ hpos) with rfl | rfl | rfl | rfl
    · exact absurd ho.2.1 hsem
    · exact absurd ho.2.1 hsem
    · -- the service still holds the request, which is now collected
      obtain ⟨h2, h1, hr, -⟩ := ho
      simp only [requestDestroy, h2, OfNat.ofNat_ne_zero, if_false, OfNat.ofNat_ne_one,
        Option.some.injEq] at hdes
      subst hdes
      refine IpcState.addrOk_of_stage .collected (Function.update_self _ _ _) ha ?_ ?_
      · simp only [View.ext_iff, Stage.view] at hview ⊢
        omega
      · simp [Stage.Holds, h1, hr]
    · -- the task held the last reference: the request is freed
      obtain ⟨h1, -, -⟩ := ho
      simp only [requestDestroy, h1, one_ne_zero, if_false, if_true, Option.some.injEq] at hdes
      subst hdes
      refine IpcState.addrOk_of_free (by simp) ?_
      simp only [View.ext_iff, Stage.view] at hview
      ext <;> simp <;> omega
  · refine (hI.addr b).congr (by simp [hb]) ?_
    have hab : (a == b) = false := beq_false_of_ne (Ne.symm hb)
    simp only [hab, Bool.false_eq_true, if_false] at hv
    ext <;> omega

/-! ### `endpoint_receive` -/

/-- What a pass of `endpoint_receive` can do: take the first address of the mailbox and serve
its request, or find the mailbox empty and sleep. -/
theorem ipcStep_receive {s ep : Nat} (hs : P.services[s]? = some (.receiving ep))
    (h : ipcStep P (.receive s) = some P') :
    ∃ mb, P.mbox[ep]? = some mb ∧
      ((∃ bytes, (kMailboxTryReceiveLocked mb).2.2 = some bytes ∧
        P' = (P.setMbox ep (kMailboxTryReceiveLocked mb).1).setService s
          (.serving ep (ptrOfBytes bytes))) ∨ P' = P) := by
  simp only [ipcStep, hs] at h
  cases hm : P.mbox[ep]? with
  | none => simp [hm] at h
  | some mb =>
    simp only [hm] at h
    refine ⟨mb, rfl, ?_⟩
    split at h
    · exact Or.inl ⟨_, ‹_›, (Option.some.inj h).symm⟩
    · exact Or.inr (Option.some.inj h).symm

theorem IpcInv.receive (hI : IpcInv P) {s ep : Nat} (hs : P.services[s]? = some (.receiving ep))
    (h : ipcStep P (.receive s) = some P') : IpcInv P' := by
  obtain ⟨mb, hmb, ⟨bytes, hbytes, rfl⟩ | rfl⟩ := ipcStep_receive hs h
  · have hsl : s < P.services.length := (List.getElem?_eq_some_iff.1 hs).1
    have he : ep < P.mbox.length := (List.getElem?_eq_some_iff.1 hmb).1
    have hold : P.services[s] = .receiving ep := (List.getElem?_eq_some_iff.1 hs).2
    have hmbe : P.mbox[ep] = mb := (List.getElem?_eq_some_iff.1 hmb).2
    obtain ⟨hmI, hm4⟩ := hI.mbox mb (List.mem_of_getElem? hmb)
    -- an empty mailbox gives nothing
    have hsize : mb.size ≠ 0 := fun h0 => by simp [kMailboxTryReceiveLocked, h0] at hbytes
    obtain ⟨msg, hmsg, hcount⟩ := mailCount_tryReceive hmI hsize
    rw [hmsg, Option.some.injEq] at hbytes
    subst hbytes
    set a := ptrOfBytes msg
    -- the address was in the mailbox: its request was queued
    have hpos : 0 < (P.view a).mail := mail_pos hmb (by rw [hcount a]; simp)
    obtain ⟨o, st, hro, ha, hview, ho⟩ := (hI.addr a).stage (View.ne_zero_of_mail hpos)
    obtain rfl := Stage.eq_queued (hview ▸ hpos)
    have hep : ∀ x ∈ (P.setMbox ep (kMailboxTryReceiveLocked mb).1).services.set s
        (.serving ep a), x.ep < (P.setMbox ep (kMailboxTryReceiveLocked mb).1).mbox.length := by
      simpa using forall_mem_set hI.service_ep (show (Service.serving ep a).ep < P.mbox.length
        from he)
    refine ⟨forall_mem_set hI.mbox ⟨(hmI.tryReceive hsize).1, by rw [msgSize_tryReceive, hm4]⟩,
      fun c hc e he' => by simpa using hI.client_ep c hc e he', hep, fun b => ?_⟩
    have hv₁ := view_setMbox he (kMailboxTryReceiveLocked mb).1 b
    have hv₂ := view_setService
      (P := P.setMbox ep (kMailboxTryReceiveLocked mb).1) hsl (.serving ep a) b
    simp only [IpcState.setMbox_services, hold, hmbe, hcount b, View.ext_iff, View.add_sending,
      View.add_waiting, View.add_mail, View.add_serving, View.add_replying, Service.view,
      Service.servingOn, Service.replyingOn] at hv₁ hv₂
    by_cases hb : b = a
    · -- a service task serves it
      subst hb
      refine IpcState.addrOk_of_stage (o := o) .serving (by simpa using hro) ha ?_ ho
      simp only [View.ext_iff, Stage.view] at hview ⊢
      simp at hv₁ hv₂
      omega
    · refine (hI.addr b).congr (by simp) ?_
      simp [Ne.symm hb] at hv₁ hv₂
      ext <;> omega
  · exact hI

/-! ### `request_read` and `request_write` -/

/-- What `request_read` by a service task does: with the request's process set, it moves the
send cursor over what it copied in. -/
theorem ipcStep_read {s ep a n : Nat} (hs : P.services[s]? = some (.serving ep a))
    (h : ipcStep P (.read s n) = some P') :
    ∃ o x, P.reqs a = some o ∧ o.process ≠ none ∧ requestRead P.space o.xfer n = some x ∧
      P' = P.setReq a (some { o with xfer := x.1 }) := by
  simp only [ipcStep, hs] at h
  cases hr : P.reqs a with
  | none => simp [hr] at h
  | some o =>
    simp only [hr] at h
    split at h
    · cases h
    · obtain ⟨x, hx, rfl⟩ := Option.map_eq_some_iff.1 h
      exact ⟨o, x, rfl, ‹_›, hx, rfl⟩

/-- What `request_write` by a service task does: with the request's process set, it copies out
and moves the receive cursor. -/
theorem ipcStep_write {s ep a : Nat} {msg : List UInt8}
    (hs : P.services[s]? = some (.serving ep a)) (h : ipcStep P (.write s msg) = some P') :
    ∃ o x, P.reqs a = some o ∧ o.process ≠ none ∧ requestWrite P.space o.xfer msg = some x ∧
      P' = (P.setReq a (some { o with xfer := x.2.1 })).setSpace x.1 := by
  simp only [ipcStep, hs] at h
  cases hr : P.reqs a with
  | none => simp [hr] at h
  | some o =>
    simp only [hr] at h
    split at h
    · cases h
    · obtain ⟨x, hx, rfl⟩ := Option.map_eq_some_iff.1 h
      exact ⟨o, x, rfl, ‹_›, hx, rfl⟩

/-- A step that changes the transfer state of a request being served, and perhaps memory, keeps
the invariant. -/
theorem IpcInv.setXfer (hI : IpcInv P) {s ep a : Nat} (hs : P.services[s]? = some (.serving ep a))
    {o : ReqObj} (hro : P.reqs a = some o) (x : Request) {P₁ : IpcState}
    (hP₁ : P₁.reqs = Function.update P.reqs a (some { o with xfer := x }))
    (hmbox : P₁.mbox = P.mbox) (hview : P₁.view = P.view) (hcl : P₁.clients = P.clients)
    (hsv : P₁.services = P.services) : IpcInv P₁ := by
  have hpos := servingOn_pos hs
  obtain ⟨o₁, st, hro₁, ha, hst, ho⟩ := (hI.addr a).stage (View.ne_zero_of_serving hpos)
  rw [hro] at hro₁
  cases hro₁
  obtain rfl := Stage.eq_serving (hst ▸ hpos)
  refine ⟨hmbox ▸ hI.mbox, hcl ▸ hmbox ▸ hI.client_ep, hsv ▸ hmbox ▸ hI.service_ep, fun b => ?_⟩
  by_cases hb : b = a
  · subst hb
    exact IpcState.addrOk_of_stage (o := { o with xfer := x }) .serving
      (by rw [hP₁]; exact Function.update_self _ _ _) ha (by rw [hview]; exact hst) ho
  · exact (hI.addr b).congr (by rw [hP₁]; exact Function.update_of_ne hb _ _) (by rw [hview])

theorem IpcInv.read (hI : IpcInv P) {s ep a n : Nat} (hs : P.services[s]? = some (.serving ep a))
    (h : ipcStep P (.read s n) = some P') : IpcInv P' := by
  obtain ⟨o, x, hro, -, -, rfl⟩ := ipcStep_read hs h
  exact hI.setXfer hs hro x.1 rfl rfl rfl rfl rfl

theorem IpcInv.write (hI : IpcInv P) {s ep a : Nat} {msg : List UInt8}
    (hs : P.services[s]? = some (.serving ep a)) (h : ipcStep P (.write s msg) = some P') :
    IpcInv P' := by
  obtain ⟨o, x, hro, -, -, rfl⟩ := ipcStep_write hs h
  exact hI.setXfer hs hro x.2.1 rfl rfl rfl rfl rfl

/-! ### `request_reply` -/

/-- `request_reply` up to its semaphore put: the result is stored. -/
theorem ipcStep_reply {s ep a : Nat} {v : Int} (hs : P.services[s]? = some (.serving ep a))
    (h : ipcStep P (.reply s v) = some P') :
    ∃ o, P.reqs a = some o ∧
      P' = (P.setReq a (some (requestReplyPut o v))).setService s (.replying ep a) := by
  simp only [ipcStep, hs] at h
  cases hr : P.reqs a with
  | none => simp [hr] at h
  | some o =>
    simp only [hr, Option.some.injEq] at h
    exact ⟨o, rfl, h.symm⟩

theorem IpcInv.reply (hI : IpcInv P) {s ep a : Nat} {v : Int}
    (hs : P.services[s]? = some (.serving ep a)) (h : ipcStep P (.reply s v) = some P') :
    IpcInv P' := by
  obtain ⟨o, hro, rfl⟩ := ipcStep_reply hs h
  have hsl : s < P.services.length := (List.getElem?_eq_some_iff.1 hs).1
  have hold : P.services[s] = .serving ep a := (List.getElem?_eq_some_iff.1 hs).2
  have hpos := servingOn_pos hs
  obtain ⟨o₁, st, hro₁, ha, hview, ho⟩ := (hI.addr a).stage (View.ne_zero_of_serving hpos)
  rw [hro] at hro₁
  cases hro₁
  obtain rfl := Stage.eq_serving (hview ▸ hpos)
  have hep : (Service.replying ep a).ep < P.mbox.length :=
    hI.service_ep (.serving ep a) (List.mem_of_getElem? hs)
  refine ⟨hI.mbox, hI.client_ep, by simpa using forall_mem_set hI.service_ep hep, fun b => ?_⟩
  have hv := view_setService (P := P.setReq a (some (requestReplyPut o v))) hsl (.replying ep a) b
  simp only [IpcState.setReq_services, hold, view_setReq, View.ext_iff, View.add_sending,
    View.add_waiting, View.add_mail, View.add_serving, View.add_replying, Service.view,
    Service.servingOn, Service.replyingOn] at hv
  by_cases hb : b = a
  · -- the result is in and the semaphore up: replied
    subst hb
    obtain ⟨h2, h0, -, hp⟩ := ho
    refine IpcState.addrOk_of_stage .replied (Function.update_self _ _ _) ha ?_ ?_
    · simp only [View.ext_iff, Stage.view] at hview ⊢
      simp at hv
      omega
    · simp [Stage.Holds, requestReplyPut, h2, h0, hp]
  · refine (hI.addr b).congr (by simp [hb]) ?_
    simp [Ne.symm hb] at hv
    ext <;> omega

/-- The `request_destroy` that ends `request_reply`. -/
theorem ipcStep_release {s ep a : Nat} (hs : P.services[s]? = some (.replying ep a))
    (h : ipcStep P (.release s) = some P') :
    ∃ o o', P.reqs a = some o ∧ requestDestroy o = some o' ∧
      P' = (P.setReq a o').setService s (.receiving ep) := by
  simp only [ipcStep, hs] at h
  cases hr : P.reqs a with
  | none => simp [hr] at h
  | some o =>
    simp only [hr] at h
    obtain ⟨o', ho', rfl⟩ := Option.map_eq_some_iff.1 h
    exact ⟨o, o', rfl, ho', rfl⟩

theorem IpcInv.release (hI : IpcInv P) {s ep a : Nat} (hs : P.services[s]? = some (.replying ep a))
    (h : ipcStep P (.release s) = some P') : IpcInv P' := by
  obtain ⟨o, o', hro, hdes, rfl⟩ := ipcStep_release hs h
  have hsl : s < P.services.length := (List.getElem?_eq_some_iff.1 hs).1
  have hold : P.services[s] = .replying ep a := (List.getElem?_eq_some_iff.1 hs).2
  have hpos := replyingOn_pos hs
  obtain ⟨o₁, st, hro₁, ha, hview, ho⟩ := (hI.addr a).stage (View.ne_zero_of_replying hpos)
  rw [hro] at hro₁
  cases hro₁
  have hep : (Service.receiving ep).ep < P.mbox.length :=
    hI.service_ep (.replying ep a) (List.mem_of_getElem? hs)
  refine ⟨hI.mbox, hI.client_ep, by simpa using forall_mem_set hI.service_ep hep, fun b => ?_⟩
  have hv := view_setService (P := P.setReq a o') hsl (.receiving ep) b
  simp only [IpcState.setReq_services, hold, view_setReq, View.ext_iff, View.add_sending,
    View.add_waiting, View.add_mail, View.add_serving, View.add_replying, Service.view,
    Service.servingOn, Service.replyingOn] at hv
  by_cases hb : b = a
  · subst hb
    simp at hv
    rcases Stage.of_replying (hview ▸ hpos) with rfl | rfl
    · -- the task has not taken the result: answered
      obtain ⟨h2, h1, hr, -⟩ := ho
      simp only [requestDestroy, h2, OfNat.ofNat_ne_zero, if_false, OfNat.ofNat_ne_one,
        Option.some.injEq] at hdes
      subst hdes
      refine IpcState.addrOk_of_stage .answered (Function.update_self _ _ _) ha ?_ ?_
      · simp only [View.ext_iff, Stage.view] at hview ⊢
        omega
      · simp [Stage.Holds, h1, hr]
    · -- the task took it already: the last reference goes, and the request is freed
      obtain ⟨h1, -, -⟩ := ho
      simp only [requestDestroy, h1, one_ne_zero, if_false, if_true, Option.some.injEq] at hdes
      subst hdes
      refine IpcState.addrOk_of_free (by simp) ?_
      simp only [View.ext_iff, Stage.view] at hview
      ext <;> simp <;> omega
  · refine (hI.addr b).congr (by simp [hb]) ?_
    simp [Ne.symm hb] at hv
    ext <;> omega

/-! ### Every event -/

theorem IpcInv.step (hI : IpcInv P) {e : IpcEvent} (he : e.Enabled P)
    (h : ipcStep P e = some P') : IpcInv P' := by
  cases e with
  | call => exact hI.call he h
  | send t =>
    obtain ⟨a, ep, hc⟩ := he
    exact hI.send hc h
  | sendTimeout t => simp [ipcStep] at h
  | collect t =>
    obtain ⟨a, hc⟩ := he
    exact hI.collect hc h
  | collectTimeout t => simp [ipcStep] at h
  | receive s =>
    obtain ⟨ep, hs⟩ := he
    exact hI.receive hs h
  | read s n =>
    obtain ⟨ep, a, hs⟩ := he
    exact hI.read hs h
  | write s msg =>
    obtain ⟨ep, a, hs⟩ := he
    exact hI.write hs h
  | reply s v =>
    obtain ⟨ep, a, hs⟩ := he
    exact hI.reply hs h
  | release s =>
    obtain ⟨ep, a, hs⟩ := he
    exact hI.release hs h

/-- A new mailbox holds no address. -/
theorem mailCount_endpointInit {buf : Nat → UInt8} {mb : KMailBox}
    (h : endpointInit buf = some mb) (a : Nat) : mailCount a mb = 0 := by
  unfold mailCount
  rw [(kMailboxCreate_inv h).2.1]
  rfl

theorem IpcInv.boot (hB : P.Boot) : IpcInv P := by
  refine ⟨fun mb hmb => ?_, fun c hc => ?_, fun x hx => ?_, fun a => ?_⟩
  · obtain ⟨buf, hbuf⟩ := hB.mbox mb hmb
    refine ⟨(kMailboxCreate_inv hbuf).1, ?_⟩
    simp only [endpointInit, kMailboxCreate, OfNat.ofNat_ne_zero, if_false,
      Option.some.injEq] at hbuf
    rw [← hbuf]
  · rw [hB.clients c hc]
    simp [Client.ep?]
  · obtain ⟨ep, hep, rfl⟩ := hB.services x hx
    exact hep
  · -- no request, no task in a call, no service task serving, no address in a mailbox
    refine IpcState.addrOk_of_free (hB.reqs a) ?_
    have hc : ∀ c ∈ P.clients, c.sendingOn a = false ∧ c.waitingOn a = false := fun c hc => by
      rw [hB.clients c hc]
      exact ⟨rfl, rfl⟩
    have hs : ∀ x ∈ P.services, x.servingOn a = false ∧ x.replyingOn a = false := fun x hx => by
      obtain ⟨ep, -, rfl⟩ := hB.services x hx
      exact ⟨rfl, rfl⟩
    have hm : ∀ n ∈ P.mbox.map (mailCount a), n = 0 := fun n hn => by
      obtain ⟨mb, hmb, rfl⟩ := List.mem_map.1 hn
      obtain ⟨buf, hbuf⟩ := hB.mbox mb hmb
      exact mailCount_endpointInit hbuf a
    ext
    · exact List.countP_eq_zero.2 fun c hmem => by simp [(hc c hmem).1]
    · exact List.countP_eq_zero.2 fun c hmem => by simp [(hc c hmem).2]
    · exact List.sum_eq_zero hm
    · exact List.countP_eq_zero.2 fun x hmem => by simp [(hs x hmem).1]
    · exact List.countP_eq_zero.2 fun x hmem => by simp [(hs x hmem).2]

end Steps

/-- Every reachable state keeps the invariant. -/
theorem IpcReachable.inv {P : IpcState} (h : IpcReachable P) : IpcInv P := by
  induction h with
  | boot hB => exact IpcInv.boot hB
  | step _ he hs ih => exact ih.step he hs

/-- One endpoint, one task and one service task, at boot. -/
def ipcBoot : IpcState where
  reqs := fun _ => none
  mbox := [⟨80, 0, 0, 0, 20, 4, fun _ => 0⟩]
  clients := [.idle]
  services := [.receiving 0]
  space := ⟨vmBoot [], fun _ => 0⟩

theorem ipcBoot_reachable : IpcReachable ipcBoot := by
  refine .boot ⟨fun _ => rfl, fun mb hmb => ⟨fun _ => 0, ?_⟩, fun c hc => ?_, fun x hx => ?_⟩
  · simp only [ipcBoot, List.mem_singleton] at hmb
    rw [hmb]
    rfl
  · simpa [ipcBoot] using hc
  · simp only [ipcBoot, List.mem_singleton] at hx
    exact ⟨0, by simp [ipcBoot], hx⟩

/-- The task calls the endpoint with no iovecs, and its request gets the block at 8. -/
def ipcCall : IpcEvent := .call 0 0 (some 0) 0 0 [] [] (some 8) true

/-- The state that call leaves. -/
def ipcCalled : IpcState :=
  (ipcBoot.setReq 8 (some (requestDup (connectionSendSetup requestCreate 0 0 0 [] [])))).setClient 0
    (.sending 8 0)

theorem ipcCall_enabled : ipcCall.Enabled ipcBoot :=
  ⟨⟨.idle, rfl, trivial⟩, by simp [ipcBoot], by simp [ipcBoot]⟩

theorem ipcCalled_reachable : IpcReachable ipcCalled :=
  .step ipcBoot_reachable ipcCall_enabled rfl

/-! ## What every run keeps -/

/-- In every reachable state, the reference count of a live request is the number of its holders
(a task sending it counting twice), so it is positive, and no task, mailbox or service task holds
an address whose request was freed. -/
theorem ipc_refcount_holders {P : IpcState} (hP : IpcReachable P) (a : Nat) :
    (∀ o, P.reqs a = some o → o.refCount = (P.view a).total ∧ 0 < o.refCount) ∧
      (P.reqs a = none → P.view a = 0) := by
  have h := hP.inv.addr a
  unfold IpcState.AddrOk at h
  refine ⟨fun o ho => ?_, fun ho => by rwa [ho] at h⟩
  rw [ho] at h
  obtain ⟨-, st, hv, hst⟩ := h
  rw [hv, hst.refCount]
  exact ⟨rfl, by cases st <;> decide⟩

theorem ipc_refcount_holders_called :
    IpcReachable ipcCalled ∧
      ((∀ o, ipcCalled.reqs 8 = some o → o.refCount = (ipcCalled.view 8).total ∧ 0 < o.refCount) ∧
        (ipcCalled.reqs 8 = none → ipcCalled.view 8 = 0)) :=
  ⟨ipcCalled_reachable, ipc_refcount_holders ipcCalled_reachable 8⟩

/-- A call as the task that makes it sees it: out of a call, waiting for a reply that may
already be in, or returned. -/
inductive Rpc
  | idle
  | pending (reply : Option Int)
  | returned (r : Int)
  deriving DecidableEq, Repr

/-- The steps of a call. -/
def Rpc.Step : Rpc → Rpc → Prop
  | .idle, .pending none | .returned _, .pending none => True
  | .idle, .returned _ | .returned _, .returned _ => True
  | .pending none, .pending (some _) => True
  | .pending (some v), .returned w => w = v
  | _, _ => False

/-- Where the call of a task stands, with the result its request holds. -/
def Client.rpc (reqs : Nat → Option ReqObj) : Client → Rpc
  | .idle => .idle
  | .sending _ _ => .pending none
  | .waiting a => .pending ((reqs a).bind (·.r))
  | .returned r => .returned r

/-- The calls of all tasks. -/
def IpcState.rpc (P : IpcState) : List Rpc := P.clients.map (Client.rpc P.reqs)

section Refinement

variable {P : IpcState}

/-- A task out of a call may start one, or fail at once. -/
theorem Client.Free.rpc_step {c : Client} (h : c.Free) (reqs : Nat → Option ReqObj) {x : Rpc}
    (hx : x = .pending none ∨ ∃ r, x = .returned r) : (c.rpc reqs).Step x := by
  cases c with
  | idle => rcases hx with rfl | ⟨r, rfl⟩ <;> trivial
  | returned r => rcases hx with rfl | ⟨r, rfl⟩ <;> trivial
  | sending => simp [Client.Free] at h
  | waiting => simp [Client.Free] at h

/-- A task keeps its call when the request it may wait on keeps its result. -/
theorem Client.rpc_congr {reqs reqs' : Nat → Option ReqObj} {c : Client}
    (h : ∀ a, c = .waiting a → (reqs' a).bind (·.r) = (reqs a).bind (·.r)) :
    c.rpc reqs = c.rpc reqs' := by
  cases c with
  | waiting a => simp only [Client.rpc, h a rfl]
  | _ => rfl

/-- A step of one task moves its call and keeps the others', if the requests they wait on keep
their results. -/
theorem rpc_setClient {t : Nat} {c₀ c : Client} {reqs' : Nat → Option ReqObj}
    (hc : P.clients[t]? = some c₀)
    (hself : c₀.rpc P.reqs = c.rpc reqs' ∨ (c₀.rpc P.reqs).Step (c.rpc reqs'))
    (hr : ∀ a i, i ≠ t → P.clients[i]? = some (.waiting a) →
      (reqs' a).bind (·.r) = (P.reqs a).bind (·.r)) :
    List.Forall₂ (fun x y => x = y ∨ x.Step y) P.rpc
      ((P.clients.set t c).map (Client.rpc reqs')) := by
  unfold IpcState.rpc
  rw [List.forall₂_iff_get]
  refine ⟨by simp, fun i h₁ _ => ?_⟩
  simp only [List.length_map] at h₁
  simp only [List.get_eq_getElem, List.getElem_map, List.getElem_set]
  by_cases hi : t = i
  · subst hi
    rw [if_pos rfl, (List.getElem?_eq_some_iff.1 hc).2]
    exact hself
  · rw [if_neg hi]
    exact Or.inl (Client.rpc_congr fun a ha =>
      hr a i (Ne.symm hi) (by rw [List.getElem?_eq_getElem h₁, ha]))

/-- A step of a service task moves each task's call by at most one step. -/
theorem rpc_sameClients {reqs' : Nat → Option ReqObj}
    (h : ∀ c ∈ P.clients, c.rpc P.reqs = c.rpc reqs' ∨ (c.rpc P.reqs).Step (c.rpc reqs')) :
    List.Forall₂ (fun x y => x = y ∨ x.Step y) P.rpc (P.clients.map (Client.rpc reqs')) := by
  unfold IpcState.rpc
  rw [List.forall₂_map_left_iff, List.forall₂_map_right_iff, List.forall₂_same]
  exact h

/-- A transfer moves a request's cursors and leaves its result. -/
theorem bind_r_update_xfer {reqs : Nat → Option ReqObj} {a : Nat} {o : ReqObj}
    (hro : reqs a = some o) (x : Request) (b : Nat) :
    (Function.update reqs a (some { o with xfer := x }) b).bind (·.r) = (reqs b).bind (·.r) := by
  by_cases hb : b = a
  · subst hb
    simp [hro]
  · simp [hb]

/-- Two tasks waiting on one request count twice. -/
theorem two_le_waiting {t i a : Nat} (hti : t ≠ i) (ht : P.clients[t]? = some (.waiting a))
    (hi : P.clients[i]? = some (.waiting a)) : 2 ≤ (P.view a).waiting := by
  have htl : t < P.clients.length := (List.getElem?_eq_some_iff.1 ht).1
  have hset := ListCount.countP_set_add (p := (·.waitingOn a)) htl .idle
  rw [(List.getElem?_eq_some_iff.1 ht).2] at hset
  have hpos : 0 < (P.clients.set t .idle).countP (·.waitingOn a) :=
    List.countP_pos_iff.2 ⟨_, List.mem_of_getElem? (by rw [List.getElem?_set_ne hti]; exact hi),
      by simp [Client.waitingOn]⟩
  have h₁ : (Client.waiting a).waitingOn a = true := by simp [Client.waitingOn]
  have h₂ : Client.idle.waitingOn a = false := rfl
  simp only [h₁, h₂, if_true, Bool.false_eq_true, if_false] at hset
  show 2 ≤ P.clients.countP (·.waitingOn a)
  omega

theorem Stage.waiting_le_one (st : Stage) : st.view.waiting ≤ 1 := by
  cases st <;> decide

/-- At most one task waits on a request. -/
theorem IpcInv.waiting_unique (hI : IpcInv P) {t i a : Nat}
    (ht : P.clients[t]? = some (.waiting a)) (hi : P.clients[i]? = some (.waiting a)) : i = t := by
  by_contra hne
  have h2 := two_le_waiting (Ne.symm hne) ht hi
  obtain ⟨o, st, -, -, hview, -⟩ := (hI.addr a).stage (View.ne_zero_of_waiting (waitingOn_pos ht))
  rw [hview] at h2
  have := st.waiting_le_one
  omega

end Refinement

/-- Seen as calls, every step of a reachable state moves each task's call by one `Rpc` step or
leaves it. So a call gets at most one reply, and returns exactly what that reply said: the
result `request_reply` stored for its request. -/
theorem ipc_refines_rpc {P P' : IpcState} {e : IpcEvent} (hP : IpcReachable P)
    (he : e.Enabled P) (h : ipcStep P e = some P') :
    List.Forall₂ (fun x y => x = y ∨ x.Step y) P.rpc P'.rpc := by
  have hI := hP.inv
  cases e with
  | call t c ep p pgtab sIov rIov alloc iovOk =>
    obtain ⟨⟨c₀, hc₀, hfree⟩, -, halloc⟩ := he
    rcases ipcStep_call h with ⟨r, rfl⟩ | ⟨e, a, rfl, rfl, rfl⟩
    · exact rpc_setClient hc₀ (Or.inr (hfree.rpc_step _ (Or.inr ⟨r, rfl⟩)))
        fun _ _ _ _ => rfl
    · obtain ⟨hfresh, -⟩ := halloc a rfl
      have h0 : P.view a = 0 := by
        have := hI.addr a
        unfold IpcState.AddrOk at this
        rwa [hfresh] at this
      refine rpc_setClient hc₀ (Or.inr (hfree.rpc_step _ (Or.inl rfl))) fun b i _ hb => ?_
      -- nobody waits on the fresh block
      have hba : b ≠ a := fun hba => by
        have := waitingOn_pos (hba ▸ hb)
        simp [h0] at this
      simp [hba]
  | send t =>
    obtain ⟨a, ep, hc⟩ := he
    obtain ⟨mb, -, ⟨-, rfl⟩ | rfl⟩ := ipcStep_send hc h
    · -- the request is at its first stage, with no result yet
      have hpos := sendingOn_pos hc
      obtain ⟨o, st, hro, -, hview, ho⟩ := (hI.addr a).stage (View.ne_zero_of_sending hpos)
      obtain rfl := Stage.eq_sending (hview ▸ hpos)
      obtain ⟨-, -, hr, -⟩ := ho
      exact rpc_setClient hc (Or.inl (by simp [Client.rpc, hro, hr])) fun _ _ _ _ => rfl
    · exact List.forall₂_same.2 fun _ _ => Or.inl rfl
  | sendTimeout t => simp [ipcStep] at h
  | collect t =>
    obtain ⟨a, hc⟩ := he
    obtain ⟨o, hro, ⟨-, rfl⟩ | ⟨v, o', -, hrv, -, rfl⟩⟩ := ipcStep_collect hc h
    · exact List.forall₂_same.2 fun _ _ => Or.inl rfl
    -- the call returns the stored result; no other task waits on the request
    refine rpc_setClient hc (Or.inr (by simp [Client.rpc, hro, hrv, Rpc.Step]))
      fun b i hi hb => ?_
    have hba : b ≠ a := fun hba => hi (hI.waiting_unique hc (hba ▸ hb))
    simp [hba]
  | collectTimeout t => simp [ipcStep] at h
  | receive s =>
    obtain ⟨ep, hs⟩ := he
    obtain ⟨mb, -, ⟨bytes, -, rfl⟩ | rfl⟩ := ipcStep_receive hs h
    · exact rpc_sameClients fun _ _ => Or.inl rfl
    · exact List.forall₂_same.2 fun _ _ => Or.inl rfl
  | read s n =>
    obtain ⟨ep, a, hs⟩ := he
    obtain ⟨o, x, hro, -, -, rfl⟩ := ipcStep_read hs h
    exact rpc_sameClients fun _ _ =>
      Or.inl (Client.rpc_congr fun b _ => bind_r_update_xfer hro x.1 b)
  | write s msg =>
    obtain ⟨ep, a, hs⟩ := he
    obtain ⟨o, x, hro, -, -, rfl⟩ := ipcStep_write hs h
    exact rpc_sameClients fun _ _ =>
      Or.inl (Client.rpc_congr fun b _ => bind_r_update_xfer hro x.2.1 b)
  | reply s v =>
    obtain ⟨ep, a, hs⟩ := he
    obtain ⟨o, hro, rfl⟩ := ipcStep_reply hs h
    have hpos := servingOn_pos hs
    obtain ⟨o₁, st, hro₁, -, hview, ho⟩ := (hI.addr a).stage (View.ne_zero_of_serving hpos)
    rw [hro] at hro₁
    cases hro₁
    obtain rfl := Stage.eq_serving (hview ▸ hpos)
    obtain ⟨-, -, hr, -⟩ := ho
    refine rpc_sameClients fun c _ => ?_
    -- the task waiting on the request gets its reply
    by_cases hc : c = .waiting a
    · subst hc
      right
      simp only [Client.rpc, IpcState.setService_reqs, IpcState.setReq_reqs, hro, hr,
        Function.update_self, Option.bind_some, requestReplyPut]
      trivial
    · refine Or.inl (Client.rpc_congr fun b hb => ?_)
      have hba : b ≠ a := fun hba => hc (hba ▸ hb)
      simp [hba]
  | release s =>
    obtain ⟨ep, a, hs⟩ := he
    obtain ⟨o, o', hro, hdes, rfl⟩ := ipcStep_release hs h
    have hpos := replyingOn_pos hs
    obtain ⟨o₁, st, hro₁, -, hview, ho⟩ := (hI.addr a).stage (View.ne_zero_of_replying hpos)
    rw [hro] at hro₁
    cases hro₁
    refine rpc_sameClients fun c hc => Or.inl (Client.rpc_congr fun b hb => ?_)
    subst hb
    by_cases hba : b = a
    · subst hba
      -- a task waits on the request, so it is replied, and the destroy keeps its result
      have hw : 0 < (P.view b).waiting :=
        List.countP_pos_iff.2 ⟨_, hc, by simp [Client.waitingOn]⟩
      rcases Stage.of_replying (hview ▸ hpos) with rfl | rfl
      · obtain ⟨h2, -⟩ := ho
        simp only [requestDestroy, h2, OfNat.ofNat_ne_zero, if_false, OfNat.ofNat_ne_one,
          Option.some.injEq] at hdes
        subst hdes
        simp [hro]
      · rw [hview] at hw
        simp [Stage.view] at hw
    · simp [hba]

theorem ipc_refines_rpc_call :
    IpcReachable ipcBoot ∧ ipcCall.Enabled ipcBoot ∧ ipcStep ipcBoot ipcCall = some ipcCalled ∧
      List.Forall₂ (fun x y => x = y ∨ x.Step y) ipcBoot.rpc ipcCalled.rpc :=
  ⟨ipcBoot_reachable, ipcCall_enabled, rfl,
    ipc_refines_rpc ipcBoot_reachable ipcCall_enabled rfl⟩

end Argentum.Ipc
