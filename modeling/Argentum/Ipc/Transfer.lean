import Argentum.Mm.Vm

/-!
# Argentum.Ipc.Transfer

How the bytes of a request move between a process and a service: `vm_space_copy_in` and
`vm_space_copy_out` of `kernel/process/vmspace.c`, the cursors of `request_read` and
`request_write` of `kernel/ipc/request.c`, and the request that `sys_ipc_sendv` of
`kernel/syscall.c` builds through `connection_sendv` of `kernel/ipc/connection.c`.

`vm_space_copy_*` decide by address alone: above `VIRT_KERNEL_BASE` they copy to or from
kernel memory, which kernel-internal callers pass; below it they go through the page tables
of the process. Kernel memory is `kmem`, by kernel virtual address.

`sys_ipc_sendv` checks and copies in the user's iovec arrays, and keeps their `iov_base` and
`iov_len` as they are: a request's cursor may then point at kernel memory.
-/

namespace Argentum.Ipc

open Argentum.Mm

/-- User memory, through the page tables, and the kernel's own bytes. -/
structure Space where
  vm : VmState
  kmem : Nat → UInt8

/-- `vm_space_copy_out(process, src, dst_va, n)` for a process with page table `pgtab`. -/
def vmSpaceCopyOut (M : Space) (pgtab : Nat) (src : Nat → UInt8) (dstVa n : Nat) :
    Option (Space × Int) :=
  if (dstVa + n) % 2 ^ 32 < dstVa then some (M, -eFault)
  else if dstVa > virtKernelBase then
    -- a kernel address: `memmove` with no check
    let kmem a := if dstVa ≤ a ∧ a < dstVa + n then src (a - dstVa) else M.kmem a
    some ({ M with kmem }, 0)
  else (vmCopyOut M.vm pgtab src dstVa n).map fun x => ({ M with vm := x.1 }, x.2)

/-- `vm_space_copy_in(process, dst, src_va, n)`: the `n` bytes at `src_va`. -/
def vmSpaceCopyIn (M : Space) (pgtab srcVa n : Nat) : Option (Except Int (List UInt8)) :=
  if (srcVa + n) % 2 ^ 32 < srcVa then some (.error (-eFault))
  else if srcVa > virtKernelBase then some (.ok ((List.range n).map fun i => M.kmem (srcVa + i)))
  else vmCopyIn M.vm pgtab srcVa n

/-! ## Requests -/

/-- `struct iovec`. -/
structure Iovec where
  base : Nat
  len : Nat
  deriving DecidableEq, Repr

/-- The transfer state of a `struct Request`: the iovecs of the sender, with a cursor in each
direction, and the page table of `req->process`. A NULL iovec array is the empty list. -/
structure Request where
  sendIov : List Iovec
  sendIdx : Nat
  sendPos : Nat
  recvIov : List Iovec
  recvIdx : Nat
  recvPos : Nat
  pgtab : Nat
  deriving DecidableEq, Repr

/-- The cursor after `n` bytes of the iovec `iov`, at `pos`: the next iovec once this one is
full. -/
def advanceCursor (iov : Iovec) (idx pos n : Nat) : Nat × Nat :=
  if pos + n = iov.len then (idx + 1, 0) else (idx, pos + n)

/-- `request_read(req, msg, n)`: up to `n` bytes from the sender's iovecs, in order; a failed
copy is `k_panic("copy")`. -/
def requestRead (M : Space) (req : Request) (n : Nat) : Option (Request × List UInt8) :=
  if n = 0 then some (req, [])
  else if h : req.sendIdx < req.sendIov.length then
    let iov := req.sendIov[req.sendIdx]
    let nread := min (iov.len - req.sendPos) n
    if nread = 0 then requestRead M { req with sendIdx := req.sendIdx + 1, sendPos := 0 } n
    else
      match vmSpaceCopyIn M req.pgtab ((iov.base + req.sendPos) % 2 ^ 32) nread with
      | none => none
      | some (.error _) => none
      | some (.ok bytes) =>
        let c := advanceCursor iov req.sendIdx req.sendPos nread
        (requestRead M { req with sendIdx := c.1, sendPos := c.2 } (n - nread)).map
          fun x => (x.1, bytes ++ x.2)
  else some (req, [])
termination_by n + (req.sendIov.length - req.sendIdx)
decreasing_by
  · omega
  · -- the cursor moves to the next iovec, or `n` goes down by `nread > 0`
    unfold advanceCursor
    split <;> simp only [iov, nread] at * <;> omega

/-- `request_write(req, msg, n)`: the bytes `msg` to the sender's receive iovecs, as far as
they go; the number written. A failed copy is `k_panic("copy")`. -/
def requestWrite (M : Space) (req : Request) (msg : List UInt8) :
    Option (Space × Request × Nat) :=
  if msg = [] then some (M, req, 0)
  else if h : req.recvIdx < req.recvIov.length then
    let iov := req.recvIov[req.recvIdx]
    let nwrite := min (iov.len - req.recvPos) msg.length
    if nwrite = 0 then requestWrite M { req with recvIdx := req.recvIdx + 1, recvPos := 0 } msg
    else
      match vmSpaceCopyOut M req.pgtab (fun i => msg.getD i 0)
          ((iov.base + req.recvPos) % 2 ^ 32) nwrite with
      | none => none
      | some (M₁, r) =>
        if r < 0 then none
        else
          let c := advanceCursor iov req.recvIdx req.recvPos nwrite
          (requestWrite M₁ { req with recvIdx := c.1, recvPos := c.2 } (msg.drop nwrite)).map
            fun x => (x.1, x.2.1, nwrite + x.2.2)
  else some (M, req, 0)
termination_by msg.length + (req.recvIov.length - req.recvIdx)
decreasing_by
  · omega
  · unfold advanceCursor
    split <;> simp only [iov, nwrite, List.length_drop] at * <;> omega

theorem requestRead_zero (M : Space) (req : Request) : requestRead M req 0 = some (req, []) := by
  rw [requestRead, if_pos rfl]

/-- A copy that succeeds gives the `n` bytes asked for. -/
theorem vmCopyInLoop_length (S : VmState) (pgtab srcVa n : Nat) :
    ∀ bytes, vmCopyInLoop S pgtab srcVa n = some (.ok bytes) → bytes.length = n := by
  fun_induction vmCopyInLoop S pgtab srcVa n with
  | case1 => simp
  | case2 => simp
  | case3 => simp
  | case4 srcVa n hn offset ncopy page flags hlook ih =>
    intro bytes h
    simp only [Option.map_eq_some_iff] at h
    obtain ⟨r, hr, hmap⟩ := h
    cases r with
    | error e => simp [Except.map] at hmap
    | ok rest =>
      simp only [Except.map, Except.ok.injEq] at hmap
      subst hmap
      have hle : ncopy ≤ n := Nat.min_le_right _ _
      simp [ih rest hr]
      omega

theorem vmSpaceCopyIn_length {M : Space} {pgtab srcVa n : Nat} {bytes : List UInt8}
    (h : vmSpaceCopyIn M pgtab srcVa n = some (.ok bytes)) : bytes.length = n := by
  unfold vmSpaceCopyIn vmCopyIn at h
  split_ifs at h with h1 h2 h3
  · simp at h
  · -- a kernel address: the bytes of `kmem`
    simp only [Option.some.injEq, Except.ok.injEq] at h
    simp [← h]
  · exact vmCopyInLoop_length _ _ _ _ _ h

/-- `request_read` gives at most the `n` bytes asked for. -/
theorem requestRead_length_le (M : Space) (req : Request) (n : Nat) :
    ∀ req' bytes, requestRead M req n = some (req', bytes) → bytes.length ≤ n := by
  fun_induction requestRead M req n with
  | case1 req => simp
  | case2 req n hn h iov nread hz ih => exact ih
  | case3 => simp
  | case4 => simp
  | case5 req n hn h iov nread hz bytes hcopy c ih =>
    intro req' bytes' heq
    simp only [Option.map_eq_some_iff, Prod.mk.injEq] at heq
    obtain ⟨⟨req'', rest⟩, hrest, -, rfl⟩ := heq
    have hlen : bytes.length = nread := vmSpaceCopyIn_length hcopy
    have hle : nread ≤ n := Nat.min_le_right _ _
    have := ih req'' rest hrest
    simp only [List.length_append]
    omega
  | case6 => simp
/-! ## `sys_ipc_sendv` -/

/-- A 32-bit little-endian word. -/
def le32 (b0 b1 b2 b3 : UInt8) : Nat :=
  b0.toNat + 256 * b1.toNat + 65536 * b2.toNat + 16777216 * b3.toNat

/-- An array of `struct iovec` as the bytes of user memory hold it. -/
def decodeIovecs : List UInt8 → List Iovec
  | b0 :: b1 :: b2 :: b3 :: l0 :: l1 :: l2 :: l3 :: rest =>
    ⟨le32 b0 b1 b2 b3, le32 l0 l1 l2 l3⟩ :: decodeIovecs rest
  | _ => []

/-- The permission `sys_arg_buf(..., VM_READ)` asks, with `VM_USER` as it adds it. -/
def userRead : VmFlags :=
  { read := true, write := false, exec := false, nocache := false, user := true, cow := false,
    page := false }

/-- `sys_arg_buf(n, &store, len, perm)` for the argument `va`: `none` for a NULL pointer, and
otherwise the `len` bytes at `va`, checked with `vm_user_check_buf` and copied in. -/
def sysArgBuf (S : VmState) (pgtab va len : Nat) (perm : VmFlags) :
    Option (VmState × Except Int (Option (List UInt8))) :=
  if va = 0 then some (S, .ok none)
  else
    match vmUserCheckBuf S pgtab va len perm with
    | none => none
    | some (S₁, r) =>
      if r < 0 then some (S₁, .error r)
      else
        match vmCopyIn S₁ pgtab va len with
        | none => none
        | some (.error r) => some (S₁, .error r)
        | some (.ok bytes) => some (S₁, .ok (some bytes))

/-- The iovec array argument of `sys_ipc_sendv` at `va` with `cnt` entries: NULL when `cnt` is
not positive. -/
def sysArgIovecs (S : VmState) (pgtab va cnt : Nat) :
    Option (VmState × Except Int (List Iovec)) :=
  if cnt = 0 then some (S, .ok [])
  else
    (sysArgBuf S pgtab va (cnt * 8 % 2 ^ 32) userRead).map fun x =>
      (x.1, x.2.map fun bytes => (bytes.map decodeIovecs).getD [])

/-- `sys_ipc_sendv(fd, send_iov, send_iov_cnt, recv_iov, recv_iov_cnt)` up to the request
`connection_sendv` hands to the service of `fd`, with both cursors at the start. -/
def sysIpcSendv (S : VmState) (pgtab sendVa sendCnt recvVa recvCnt : Nat) :
    Option (VmState × Except Int Request) :=
  match sysArgIovecs S pgtab sendVa sendCnt with
  | none => none
  | some (S₁, .error r) => some (S₁, .error r)
  | some (S₁, .ok sendIov) =>
    match sysArgIovecs S₁ pgtab recvVa recvCnt with
    | none => none
    | some (S₂, .error r) => some (S₂, .error r)
    | some (S₂, .ok recvIov) =>
      some (S₂, .ok ⟨sendIov, 0, 0, recvIov, 0, 0, pgtab⟩)

/-- `sys_ipc_sendv` keeps the `iov_base` of a user iovec as it is, and `request_read` then
copies kernel memory. From boot, page 1 of table 0 holds one `struct iovec` with base
`0x80001000` and length 4; `sys_ipc_sendv` with it as the send array builds a request for that
range, and the service's `request_read` of 4 bytes returns the kernel's bytes there, whatever
they are. -/
theorem ipc_sendv_reads_kernel (kmem : Nat → UInt8) :
    (∃ S, ((vmUserAlloc (vmBoot [5, 6, 7, 8]) 0 4096 4096
        ⟨true, true, false, false, true, false, false⟩).bind fun x =>
      (vmCopyOut x.1 0 (fun i => [0, 0x10, 0, 0x80, 4, 0, 0, 0].getD i 0) 4096 8).bind fun y =>
        sysIpcSendv y.1 0 4096 1 0 0) = some (S, .ok ⟨[⟨0x80001000, 4⟩], 0, 0, [], 0, 0, 0⟩)) ∧
    ∀ S : VmState, (requestRead ⟨S, kmem⟩ ⟨[⟨0x80001000, 4⟩], 0, 0, [], 0, 0, 0⟩ 4).map Prod.snd =
      some [kmem 0x80001000, kmem 0x80001001, kmem 0x80001002, kmem 0x80001003] := by
  refine ⟨?_, fun S => ?_⟩
  · simp [vmUserAlloc, userEnd, vmUserAssertPages, vmCopyOut, vmUserAssert, vmWriteLoop,
      vmPageLookupCow, vmPageLookup, roundDown, pageSize, vmUserAllocLoop, pageAllocOne, vmBoot,
      pageAllocBlockTag, vmPageInsert, archVmLookup, virtKernelBase, l1Idx, vmPageRemove,
      VmState.pageEntry, VmState.setRefCount, VmState.setPte, pageTagAnon, pageTagPgtab, pageAssert,
      sysIpcSendv, sysArgIovecs, sysArgBuf, vmUserCheckBuf, vmUserCheckBufLoop, vmFlagsCheck,
      decodeIovecs, le32, userRead, vmCopyIn, vmCopyInLoop, writeChunk, Except.map, List.range_succ]
  · simp [requestRead, vmSpaceCopyIn, advanceCursor, virtKernelBase, List.range_succ]

end Argentum.Ipc
