import Argentum.Ipc.Transfer

/-!
# Argentum.Net.Socket

`net_recvfrom` and `net_sendto` of `kernel/net/net.c`: data moves between lwIP and user memory
through a staging buffer of one page, `PAGE_SIZE` bytes at a time.

lwIP is the environment. Its `k`-th `lwip_recvfrom` call receives the bytes `recv k` (at most
the chunk asked; none at the end of the stream) or fails with an `errno`; its `k`-th
`lwip_sendto` call accepts some of the bytes handed to it, or fails: `sent k`. The staging buffer
is a block of `k_malloc(PAGE_SIZE)`, which is never `NULL` for a page (`kMallocOk`): `staging` is
what the block held, or `none` when memory has run out and `k_malloc` panics. `errno` is the
value it has when the call starts: only lwIP sets it.

`net_recvfrom` copies the whole chunk it asked for to the user, not the `r` bytes just
received, and tests `vm_space_copy_out`'s result, 0 on success, against the chunk size: after
a short receive the rest of the chunk is stale staging bytes, and the loop always stops after
its first copy.
-/

namespace Argentum.Net

open Argentum.Mm Argentum.Ipc

/-- The result of one `lwip_recvfrom` call. -/
inductive RecvResult
  | data (bytes : List UInt8)
  | error (errno : Int)

/-- The result of one `lwip_sendto` call. -/
inductive SendResult
  | accepted (n : Nat)
  | error (errno : Int)

/-- The loop of `net_recvfrom`: `k` is the next `lwip_recvfrom` call, `p` the staging buffer,
`total` the bytes received so far. -/
def netRecvfromLoop (M : Space) (pgtab : Nat) (recv : Nat → RecvResult) (k : Nat)
    (p : Nat → UInt8) (errno : Int) (va nbytes : Nat) (total : Int) : Option (Space × Int) :=
  if nbytes = 0 then some (M, total)
  else
    let nread := min nbytes pageSize
    match recv k with
    | .error e => some (M, -e)
    | .data bytes =>
      let bytes := bytes.take nread
      if bytes.length = 0 then some (M, total)
      else
        -- `lwip_recvfrom` stores the bytes received at the start of `p`
        let p := fun i => if i < bytes.length then bytes.getD i 0 else p i
        let total := total + bytes.length
        match vmSpaceCopyOut M pgtab p va nread with
        | none => none
        | some (M₁, r) =>
          if r < 0 then some (M₁, -errno)
          else if r < nread then some (M₁, total)
          else
            netRecvfromLoop M₁ pgtab recv (k + 1) p errno ((va + nread) % 2 ^ 32)
              (nbytes - nread) total
termination_by nbytes
decreasing_by
  have : 0 < pageSize := by decide
  omega

/-- `net_recvfrom(file, va, nbytes, ...)`. -/
def netRecvfrom (M : Space) (pgtab : Nat) (recv : Nat → RecvResult)
    (staging : Option (Nat → UInt8)) (errno : Int) (va nbytes : Nat) : Option (Space × Int) :=
  match kMallocOk staging.isSome pageSize with
  | none => none
  | some false => some (M, -eNoMem)
  | some true => netRecvfromLoop M pgtab recv 0 (staging.getD fun _ => 0) errno va nbytes 0

/-- The loop of `net_sendto`: `k` is the next `lwip_sendto` call. The chunks handed to lwIP
come first in the result, in order. -/
def netSendtoLoop (M : Space) (pgtab : Nat) (sent : Nat → SendResult) (k : Nat) (errno : Int)
    (va nbytes : Nat) (total : Int) : Option (List (List UInt8) × Int) :=
  if nbytes = 0 then some ([], total)
  else
    let nwrite := min nbytes pageSize
    match vmSpaceCopyIn M pgtab va nwrite with
    | none => none
    | some (.error _) => some ([], -errno)
    | some (.ok chunk) =>
      match sent k with
      | .error e => some ([chunk], -e)
      | .accepted r =>
        if r = 0 then some ([chunk], total)
        else if r < nwrite then some ([chunk], total + r)
        else
          (netSendtoLoop M pgtab sent (k + 1) errno ((va + nwrite) % 2 ^ 32) (nbytes - nwrite)
            (total + r)).map fun x => (chunk :: x.1, x.2)
termination_by nbytes
decreasing_by
  have : 0 < pageSize := by decide
  omega

/-- `net_sendto(file, va, nbytes, ...)`: `staging` is whether memory is left for the staging
buffer. -/
def netSendto (M : Space) (pgtab : Nat) (sent : Nat → SendResult) (staging : Bool) (errno : Int)
    (va nbytes : Nat) : Option (List (List UInt8) × Int) :=
  match kMallocOk staging pageSize with
  | none => none
  | some false => some ([], -eNoMem)
  | some true => netSendtoLoop M pgtab sent 0 errno va nbytes 0

/-- A short receive shows the stale bytes of the staging buffer. From boot, table 0 maps a
zeroed writable page at 0; `net_recvfrom` of 2 bytes there receives the one byte 1, returns 1,
and leaves the user's second byte equal to the staging buffer's old byte `s`, whatever `s` is,
where it was 0. -/
theorem net_recvfrom_stale_bytes (s : UInt8) (kmem : Nat → UInt8) :
    ((vmUserAlloc (vmBoot [5, 6, 7, 8]) 0 0 4096
        ⟨true, true, false, false, true, false, false⟩).bind fun x =>
      (netRecvfrom ⟨x.1, kmem⟩ 0 (fun _ => .data [1]) (some fun _ => s) 0 0 2).map fun y =>
        (vmCopyIn x.1 0 0 2, y.2, vmCopyIn y.1.vm 0 0 2)) =
      some (some (.ok [0, 0]), 1, some (.ok [1, s])) := by
  simp [vmUserAlloc, userEnd, vmUserAssertPages, vmCopyOut, vmUserAssert, vmWriteLoop,
    vmPageLookupCow, vmPageLookup, roundDown, pageSize, vmUserAllocLoop, pageAllocOne, vmBoot,
    pageAllocBlockTag, vmPageInsert, archVmLookup, virtKernelBase, l1Idx, vmPageRemove,
    VmState.pageEntry, VmState.setRefCount, VmState.setPte, pageTagAnon, pageTagPgtab, pageAssert,
    vmCopyIn, vmCopyInLoop, writeChunk, Except.map, List.range_succ, netRecvfrom, netRecvfromLoop,
    vmSpaceCopyOut, kMallocOk, anonPoolsMaxSize, anonPoolsMinSize, anonPoolsLength]

end Argentum.Net
