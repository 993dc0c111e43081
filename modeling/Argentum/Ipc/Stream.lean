import Argentum.Ipc.Transfer

/-!
# Argentum.Ipc.Stream

The iovecs of a request as one stream of bytes. `request_read` and `request_write` move a
cursor `(idx, pos)` through the sender's iovecs; at stream offset `cursorOffset` it stands
for the bytes of the iovecs before `idx` and `pos` bytes into iovec `idx`.

`vmSpaceCopyIn_bytes` says what a copy reads, byte by byte: byte `i` of a copy at `va` is
`spaceByte` at `va + i`, from kernel memory above `VIRT_KERNEL_BASE` and through the page
tables below it. From it, `requestRead_stream` reads a call of `request_read` off the stream:
it reads the `min n remaining` bytes at the cursor's offset and moves the cursor past them.
`requestWrite_stream` is the same count and move for `request_write`, whose copies
(`copyOutPieces`) put byte `j` of the message at the stream address `j` past the cursor's
offset (`OnStream`). Both keep the cursor
where `CursorOk` says it can be: before the end of an iovec, or at the start of an empty one
that the next call will skip, or past the last iovec.
-/

namespace Argentum.Ipc

open Argentum.Mm

/-! ## Bytes of memory -/

/-- The byte at `va` of user memory, through the page table `pgtab`. -/
def userByte (S : VmState) (pgtab va : Nat) : UInt8 :=
  match vmPageLookup S pgtab va with
  | some (some (page, _)) => S.mem page (va % pageSize)
  | _ => 0

/-- The byte at `va` as `vm_space_copy_in` reads it: kernel memory above
`VIRT_KERNEL_BASE`, user memory below. -/
def spaceByte (M : Space) (pgtab va : Nat) : UInt8 :=
  if va > virtKernelBase then M.kmem va else userByte M.vm pgtab va

/-- The page walk reads the page number only. -/
theorem vmPageLookup_congr (S : VmState) (pgtab : Nat) {va va' : Nat}
    (h : va / pageSize = va' / pageSize) : vmPageLookup S pgtab va = vmPageLookup S pgtab va' := by
  have hkb : va ≥ virtKernelBase ↔ va' ≥ virtKernelBase := by
    simp only [virtKernelBase, pageSize] at h ⊢
    omega
  have hl1 : l1Idx va = l1Idx va' := by
    simp only [l1Idx, Nat.shiftRight_eq_div_pow]
    simp only [pageSize] at h
    omega
  unfold vmPageLookup archVmLookup VmState.pageEntry
  simp only [hkb, hl1, h]

/-- A copy from user memory that returns reads each byte through the page tables, and
stays below `VIRT_KERNEL_BASE`. -/
theorem vmCopyInLoop_bytes (S : VmState) (pgtab srcVa n : Nat) :
    ∀ bytes, vmCopyInLoop S pgtab srcVa n = some (.ok bytes) →
      bytes = (List.range n).map (fun i => userByte S pgtab (srcVa + i)) ∧
        (0 < n → srcVa + n ≤ virtKernelBase) := by
  fun_induction vmCopyInLoop S pgtab srcVa n with
  | case1 => simp
  | case2 => simp
  | case3 => simp
  | case4 srcVa n hn offset ncopy page flags hlook ih =>
    intro bytes h
    simp only [Option.map_eq_some_iff] at h
    obtain ⟨r, hr, hmap⟩ := h
    cases r with
    | error e => simp [Except.map] at hmap
    | ok rest =>
      simp only [Except.map, Except.ok.injEq] at hmap
      subst hmap
      obtain ⟨hrest, hend⟩ := ih rest hr
      have hoff : offset < pageSize := Nat.mod_lt _ (by decide)
      have hle : ncopy ≤ n := Nat.min_le_right _ _
      have hle' : ncopy ≤ pageSize - offset := Nat.min_le_left _ _
      -- the page is mapped, so it lies below the kernel
      have hva : srcVa < virtKernelBase := by
        by_contra hge
        simp [vmPageLookup, archVmLookup, Nat.le_of_not_lt hge] at hlook
      -- the chunk is inside the page of `srcVa`
      have hchunk : ∀ i < ncopy, userByte S pgtab (srcVa + i) = S.mem page (offset + i) := by
        intro i hi
        have hpage : (srcVa + i) / pageSize = srcVa / pageSize := by
          simp only [offset, pageSize] at hi hle' ⊢
          omega
        have hmod : (srcVa + i) % pageSize = offset + i := by
          simp only [offset, pageSize] at hi hle' ⊢
          omega
        rw [userByte, vmPageLookup_congr S pgtab hpage, hlook, hmod]
      refine ⟨?_, fun _ => ?_⟩
      · have hsplit : n = ncopy + (n - ncopy) := by omega
        rw [hsplit, List.range_add, List.map_append, List.map_map, hrest]
        congr 1
        · exact List.map_congr_left fun i hi => (hchunk i (List.mem_range.1 hi)).symm
        · exact List.map_congr_left fun i _ => by simp only [Function.comp_apply, Nat.add_assoc]
      · -- a chunk ends at the page's end, which the page-aligned kernel base does not precede
        by_cases hrest0 : 0 < n - ncopy
        · have := hend hrest0
          omega
        · have hkb : virtKernelBase % pageSize = 0 := by decide
          simp only [offset, pageSize, virtKernelBase] at hkb hle' hva ⊢
          omega

/-- A copy into the kernel that returns reads `spaceByte` at each address, and does not wrap
around the address space. -/
theorem vmSpaceCopyIn_bytes {M : Space} {pgtab srcVa n : Nat} {bytes : List UInt8}
    (h : vmSpaceCopyIn M pgtab srcVa n = some (.ok bytes)) :
    bytes = (List.range n).map (fun i => spaceByte M pgtab (srcVa + i)) ∧
      srcVa ≤ (srcVa + n) % 2 ^ 32 := by
  unfold vmSpaceCopyIn at h
  split_ifs at h with hwrap hkern
  · simp at h
  · -- kernel memory, every byte of it above the base
    simp only [Option.some.injEq, Except.ok.injEq] at h
    refine ⟨?_, Nat.le_of_not_lt hwrap⟩
    rw [← h]
    exact List.map_congr_left fun i _ => by rw [spaceByte, if_pos (by omega)]
  · unfold vmCopyIn at h
    split_ifs at h with hassert
    obtain ⟨hbytes, hend⟩ := vmCopyInLoop_bytes _ _ _ _ _ h
    refine ⟨?_, Nat.le_of_not_lt hwrap⟩
    rw [hbytes]
    refine List.map_congr_left fun i hi => ?_
    have hi := List.mem_range.1 hi
    rw [spaceByte, if_neg (by have := hend (by omega); omega)]

/-! ## Cursors -/

/-- The number of bytes in the iovecs. -/
def iovTotal (iovs : List Iovec) : Nat := (iovs.map Iovec.len).sum

/-- The stream offset of the cursor `(idx, pos)`. -/
def cursorOffset (iovs : List Iovec) (idx pos : Nat) : Nat :=
  ((iovs.take idx).map Iovec.len).sum + pos

/-- The address of the byte at stream offset `p`: `iov_base + p'` of the iovec that holds
it, `p'` bytes in, in 32-bit arithmetic. -/
def streamAddr : List Iovec → Nat → Nat
  | [], _ => 0
  | iov :: iovs, p => if p < iov.len then (iov.base + p) % 2 ^ 32 else streamAddr iovs (p - iov.len)

/-- Where a cursor can be between calls: inside an iovec, at the start of an empty one, or
past the last iovec. -/
def CursorOk (iovs : List Iovec) (idx pos : Nat) : Prop :=
  (∃ h : idx < iovs.length, pos < iovs[idx].len ∨ pos = 0) ∨ (idx = iovs.length ∧ pos = 0)

/-- `connection_sendv` starts both cursors at the first iovec. -/
theorem cursorOk_zero (iovs : List Iovec) : CursorOk iovs 0 0 := by
  rcases iovs with _ | ⟨iov, iovs⟩
  · exact .inr ⟨rfl, rfl⟩
  · exact .inl ⟨Nat.succ_pos _, .inr rfl⟩

theorem cursorOk_next {iovs : List Iovec} {idx : Nat} (h : idx < iovs.length) :
    CursorOk iovs (idx + 1) 0 := by
  by_cases hnext : idx + 1 < iovs.length
  · exact .inl ⟨hnext, .inr rfl⟩
  · exact .inr ⟨by omega, rfl⟩

theorem cursorOffset_next {iovs : List Iovec} {idx : Nat} (h : idx < iovs.length) (pos : Nat) :
    cursorOffset iovs (idx + 1) pos = cursorOffset iovs idx pos + iovs[idx].len := by
  simp only [cursorOffset, List.take_add_one, List.getElem?_eq_getElem h, Option.toList_some,
    List.map_append, List.map_cons, List.map_nil, List.sum_append, List.sum_cons, List.sum_nil]
  omega

/-- An iovec ends by the end of the stream. -/
theorem cursorOffset_succ_le {iovs : List Iovec} {idx : Nat} (h : idx < iovs.length) :
    cursorOffset iovs idx 0 + iovs[idx].len ≤ iovTotal iovs := by
  have hsplit := List.sum_take_add_sum_drop (iovs.map Iovec.len) (idx + 1)
  rw [← cursorOffset_next h, cursorOffset, Nat.add_zero, iovTotal, List.map_take]
  omega

/-- Past the last iovec, the cursor is at the end of the stream. -/
theorem cursorOffset_end {iovs : List Iovec} {idx pos : Nat} (hc : CursorOk iovs idx pos)
    (h : ¬ idx < iovs.length) : cursorOffset iovs idx pos = iovTotal iovs := by
  rcases hc with ⟨hlt, -⟩ | ⟨rfl, rfl⟩
  · exact absurd hlt h
  · simp [cursorOffset, iovTotal]

/-- The address of a byte of iovec `idx`. -/
theorem streamAddr_cursorOffset : ∀ {iovs : List Iovec} {idx : Nat} (h : idx < iovs.length)
    {i : Nat}, i < iovs[idx].len →
      streamAddr iovs (cursorOffset iovs idx i) = (iovs[idx].base + i) % 2 ^ 32
  | [], _, h, _, _ => absurd h (Nat.not_lt_zero _)
  | iov :: iovs, 0, _, i, hi => by
    simp only [cursorOffset, List.take_zero, List.map_nil, List.sum_nil, Nat.zero_add,
      streamAddr, List.getElem_cons_zero] at hi ⊢
    rw [if_pos hi]
  | iov :: iovs, idx + 1, h, i, hi => by
    have ih := @streamAddr_cursorOffset iovs idx (Nat.lt_of_succ_lt_succ h) i hi
    simp only [cursorOffset, List.take_succ_cons, List.map_cons, List.sum_cons] at ih ⊢
    rw [streamAddr, if_neg (by omega),
      show iov.len + (List.map Iovec.len (List.take idx iovs)).sum + i - iov.len =
        (List.map Iovec.len (List.take idx iovs)).sum + i by omega, ih]
    rfl

/-- A cursor with nothing left in its iovec is at the start of an empty one, which the loop
skips without moving the stream offset. -/
theorem CursorOk.skip {iovs : List Iovec} {idx pos : Nat} (hc : CursorOk iovs idx pos)
    (h : idx < iovs.length) (hz : iovs[idx].len - pos = 0) :
    CursorOk iovs (idx + 1) 0 ∧ cursorOffset iovs (idx + 1) 0 = cursorOffset iovs idx pos := by
  have hpos : pos = 0 ∧ iovs[idx].len = 0 := by
    rcases hc with ⟨_, hp | hp⟩ | ⟨hidx, -⟩
    · omega
    · omega
    · omega
  refine ⟨cursorOk_next h, ?_⟩
  rw [cursorOffset_next h, hpos.1, hpos.2]
  rfl

/-- A transfer of `k > 0` bytes, no more than the iovec has left, moves the cursor `k` bytes
on: within the iovec, or to the start of the next once it is full. -/
theorem CursorOk.advance {iovs : List Iovec} {idx pos k : Nat} (h : idx < iovs.length)
    (hk : 0 < k) (hle : k ≤ iovs[idx].len - pos) :
    CursorOk iovs (advanceCursor iovs[idx] idx pos k).1 (advanceCursor iovs[idx] idx pos k).2 ∧
      cursorOffset iovs (advanceCursor iovs[idx] idx pos k).1 (advanceCursor iovs[idx] idx pos k).2 =
        cursorOffset iovs idx pos + k := by
  by_cases hfull : pos + k = iovs[idx].len
  · rw [advanceCursor, if_pos hfull]
    refine ⟨cursorOk_next h, ?_⟩
    rw [cursorOffset_next h]
    simp only [cursorOffset]
    omega
  · rw [advanceCursor, if_neg hfull]
    dsimp only
    exact ⟨.inl ⟨h, .inl (by omega)⟩, by simp only [cursorOffset]; omega⟩

/-! ## `request_read` and `request_write` -/

/-- A call of `request_read` on a request whose cursor is where `CursorOk` allows and whose
iovecs have 32-bit lengths, if it returns: it reads the `min n remaining` bytes of the stream
at the cursor's offset, each from its address, and moves the cursor past them. -/
theorem requestRead_stream (M : Space) (req : Request) (n : Nat) :
    ∀ req' bytes, (∀ iov ∈ req.sendIov, iov.len < 2 ^ 32) →
      CursorOk req.sendIov req.sendIdx req.sendPos →
      requestRead M req n = some (req', bytes) →
      req' = { req with sendIdx := req'.sendIdx, sendPos := req'.sendPos } ∧
        CursorOk req.sendIov req'.sendIdx req'.sendPos ∧
        bytes.length =
          min n (iovTotal req.sendIov - cursorOffset req.sendIov req.sendIdx req.sendPos) ∧
        cursorOffset req.sendIov req'.sendIdx req'.sendPos =
          cursorOffset req.sendIov req.sendIdx req.sendPos + bytes.length ∧
        bytes = (List.range bytes.length).map fun j => spaceByte M req.pgtab
          (streamAddr req.sendIov (cursorOffset req.sendIov req.sendIdx req.sendPos + j)) := by
  fun_induction requestRead M req n with
  | case1 req =>
    intro req' bytes _ hc h
    cases h
    exact ⟨rfl, hc, by simp, rfl, rfl⟩
  | case2 req n hn hidx iov nread hz ih =>
    -- an empty iovec is skipped at the same offset
    intro req' bytes hlen hc h
    obtain ⟨hc', hoff⟩ := hc.skip hidx (by simp only [nread, iov] at hz; omega)
    obtain ⟨hframe, hc'', hcount, hoff', hbytes⟩ := ih req' bytes hlen hc' h
    dsimp only at hcount hoff' hbytes
    rw [hoff] at hcount hoff' hbytes
    exact ⟨hframe, hc'', hcount, hoff', hbytes⟩
  | case3 => intro _ _ _ _ h; cases h
  | case4 => intro _ _ _ _ h; cases h
  | case5 req n hn hidx iov nread hz bytes hcopy c ih =>
    intro req' bytes' hlen hc h
    simp only [Option.map_eq_some_iff, Prod.mk.injEq, Prod.exists] at h
    obtain ⟨req'', rest, hrest, rfl, rfl⟩ := h
    have hmin : nread = min (iov.len - req.sendPos) n := rfl
    have hpos : req.sendPos ≤ iov.len := by
      rcases hc with ⟨_, hp | hp⟩ | ⟨hi, -⟩
      · exact Nat.le_of_lt hp
      · omega
      · omega
    obtain ⟨hc', hoff⟩ := CursorOk.advance hidx (Nat.pos_of_ne_zero hz) (Nat.min_le_left _ _)
    obtain ⟨hframe, hc'', hcount, hoff', hrestb⟩ := ih req'' rest hlen hc' hrest
    dsimp only at hcount hoff' hrestb
    rw [hoff] at hcount hoff' hrestb
    obtain ⟨hbytes, hwrap⟩ := vmSpaceCopyIn_bytes hcopy
    have hblen : bytes.length = nread := by rw [hbytes, List.length_map, List.length_range]
    have hend : cursorOffset req.sendIov req.sendIdx 0 + iov.len ≤ iovTotal req.sendIov :=
      cursorOffset_succ_le hidx
    have hiov : iov.len < 2 ^ 32 := hlen iov (List.getElem_mem hidx)
    have hoff0 : cursorOffset req.sendIov req.sendIdx req.sendPos =
        cursorOffset req.sendIov req.sendIdx 0 + req.sendPos := rfl
    refine ⟨hframe, hc'', ?_, ?_, ?_⟩
    · rw [List.length_append, hblen, hcount]
      omega
    · rw [hoff', List.length_append, hblen]
      omega
    · -- the copied chunk is the stream from the cursor, then the rest from past it
      rw [List.length_append, hblen, List.range_add, List.map_append, List.map_map]
      congr 1
      · rw [hbytes]
        refine List.map_congr_left fun i hi => ?_
        have hi := List.mem_range.1 hi
        have haddr : streamAddr req.sendIov (cursorOffset req.sendIov req.sendIdx req.sendPos + i) =
            (iov.base + (req.sendPos + i)) % 2 ^ 32 := by
          rw [show cursorOffset req.sendIov req.sendIdx req.sendPos + i =
            cursorOffset req.sendIov req.sendIdx (req.sendPos + i) by simp only [cursorOffset]; omega]
          exact streamAddr_cursorOffset hidx (show req.sendPos + i < iov.len by omega)
        rw [haddr]
        congr 1
        omega
      · refine hrestb.trans (List.map_congr_left fun j _ => ?_)
        simp only [Function.comp_apply, Nat.add_assoc]
  | case6 req n hn hidx =>
    -- past the last iovec nothing is left
    intro req' bytes _ hc h
    cases h
    rw [cursorOffset_end hc hidx]
    exact ⟨rfl, hc, by simp, rfl, rfl⟩

/-- Copies of consecutive pieces of `msg` with `vm_space_copy_out`: piece `(addr, n)` copies
the next `n` bytes to `addr`. The memory after all of them, or `none` when one fails. -/
def copyOutPieces (M : Space) (pgtab : Nat) (msg : List UInt8) :
    List (Nat × Nat) → Option Space
  | [] => some M
  | (addr, n) :: ps =>
    match vmSpaceCopyOut M pgtab (fun i => msg.getD i 0) addr n with
    | none => none
    | some (M₁, r) => if r < 0 then none else copyOutPieces M₁ pgtab (msg.drop n) ps

/-- The pieces lie on the stream of `iovs` from offset `o`, one after the other: each byte of
a piece goes to the stream address of its offset. -/
def OnStream (iovs : List Iovec) : Nat → List (Nat × Nat) → Prop
  | _, [] => True
  | o, (addr, n) :: ps =>
    (∀ i < n, streamAddr iovs (o + i) = (addr + i) % 2 ^ 32) ∧ OnStream iovs (o + n) ps

/-- A call of `request_write` on a request whose receive cursor is where `CursorOk` allows,
if it returns: it writes the `min (length msg) remaining` bytes the receive iovecs have room
for, byte `j` of `msg` to the stream address at `j` past the cursor's offset, and moves the
cursor past them. -/
theorem requestWrite_stream (M : Space) (req : Request) (msg : List UInt8) :
    ∀ M' req' k, CursorOk req.recvIov req.recvIdx req.recvPos →
      requestWrite M req msg = some (M', req', k) →
      req' = { req with recvIdx := req'.recvIdx, recvPos := req'.recvPos } ∧
        CursorOk req.recvIov req'.recvIdx req'.recvPos ∧
        k = min msg.length (iovTotal req.recvIov - cursorOffset req.recvIov req.recvIdx req.recvPos) ∧
        cursorOffset req.recvIov req'.recvIdx req'.recvPos =
          cursorOffset req.recvIov req.recvIdx req.recvPos + k ∧
        ∃ ps, (ps.map Prod.snd).sum = k ∧
          OnStream req.recvIov (cursorOffset req.recvIov req.recvIdx req.recvPos) ps ∧
          copyOutPieces M req.pgtab msg ps = some M' := by
  fun_induction requestWrite M req msg with
  | case1 M req =>
    intro M' req' k hc h
    cases h
    exact ⟨rfl, hc, by simp, rfl, [], rfl, trivial, rfl⟩
  | case2 M req msg hmsg hidx iov nwrite hz ih =>
    -- an empty iovec is skipped at the same offset
    intro M' req' k hc h
    have hlen := List.length_pos_iff.2 hmsg
    obtain ⟨hc', hoff⟩ := hc.skip hidx (by simp only [nwrite, iov] at hz; omega)
    obtain ⟨hframe, hc'', hcount, hoff', hpieces⟩ := ih M' req' k hc' h
    dsimp only at hcount hoff' hpieces
    rw [hoff] at hcount hoff' hpieces
    exact ⟨hframe, hc'', hcount, hoff', hpieces⟩
  | case3 => intro _ _ _ _ h; cases h
  | case4 => intro _ _ _ _ h; cases h
  | case5 M req msg hmsg hidx iov nwrite hz M₁ r hcopy hr c ih =>
    intro M' req' k hc h
    simp only [Option.map_eq_some_iff, Prod.mk.injEq, Prod.exists] at h
    obtain ⟨M'', req'', k', hrest, rfl, rfl, rfl⟩ := h
    have hmin : nwrite = min (iov.len - req.recvPos) msg.length := rfl
    have hpos : req.recvPos ≤ iov.len := by
      rcases hc with ⟨_, hp | hp⟩ | ⟨hi, -⟩
      · exact Nat.le_of_lt hp
      · omega
      · omega
    obtain ⟨hc', hoff⟩ := CursorOk.advance hidx (Nat.pos_of_ne_zero hz) (Nat.min_le_left _ _)
    obtain ⟨hframe, hc'', hcount, hoff', ps, hsum, hon, hcopies⟩ := ih M'' req'' k' hc' hrest
    dsimp only at hcount hoff' hon hcopies
    rw [hoff, List.length_drop] at hcount
    rw [hoff] at hoff' hon
    have hend : cursorOffset req.recvIov req.recvIdx 0 + iov.len ≤ iovTotal req.recvIov :=
      cursorOffset_succ_le hidx
    have hoff0 : cursorOffset req.recvIov req.recvIdx req.recvPos =
        cursorOffset req.recvIov req.recvIdx 0 + req.recvPos := rfl
    -- the chunk this round copies lies on the stream at the cursor
    have hchunk : ∀ i < nwrite, streamAddr req.recvIov
        (cursorOffset req.recvIov req.recvIdx req.recvPos + i) =
          ((iov.base + req.recvPos) % 2 ^ 32 + i) % 2 ^ 32 := by
      intro i hi
      rw [Nat.mod_add_mod, Nat.add_assoc, show cursorOffset req.recvIov req.recvIdx req.recvPos + i =
        cursorOffset req.recvIov req.recvIdx (req.recvPos + i) by simp only [cursorOffset]; omega]
      exact streamAddr_cursorOffset hidx (show req.recvPos + i < iov.len by omega)
    refine ⟨hframe, hc'', ?_, ?_, ((iov.base + req.recvPos) % 2 ^ 32, nwrite) :: ps, ?_, ⟨hchunk, hon⟩, ?_⟩
    · rw [hcount]
      omega
    · rw [hoff']
      omega
    · rw [List.map_cons, List.sum_cons, hsum]
    · rw [copyOutPieces, hcopy]
      dsimp only
      rw [if_neg hr]
      exact hcopies
  | case6 M req msg hmsg hidx =>
    -- past the last iovec there is no room
    intro M' req' k hc h
    cases h
    rw [cursorOffset_end hc hidx]
    exact ⟨rfl, hc, by simp, rfl, [], rfl, trivial, rfl⟩

/-! ## Successive calls -/

/-- Successive `request_read` calls of sizes `ns` on one request, as a service makes them:
the request after them and the bytes of each call. -/
def requestReads (M : Space) : Request → List Nat → Option (Request × List (List UInt8))
  | req, [] => some (req, [])
  | req, n :: ns =>
    (requestRead M req n).bind fun r =>
      (requestReads M r.1 ns).map fun rs => (rs.1, r.2 :: rs.2)

/-- Successive reads stream the iovecs: together they read the `min (sum ns) remaining` bytes
at the cursor, in order. -/
theorem requestReads_stream (M : Space) :
    ∀ (ns : List Nat) (req req' : Request) (chunks : List (List UInt8)),
      (∀ iov ∈ req.sendIov, iov.len < 2 ^ 32) → CursorOk req.sendIov req.sendIdx req.sendPos →
      requestReads M req ns = some (req', chunks) →
      req'.sendIov = req.sendIov ∧ CursorOk req.sendIov req'.sendIdx req'.sendPos ∧
        chunks.flatten.length =
          min ns.sum (iovTotal req.sendIov - cursorOffset req.sendIov req.sendIdx req.sendPos) ∧
        chunks.flatten = (List.range chunks.flatten.length).map fun j => spaceByte M req.pgtab
          (streamAddr req.sendIov (cursorOffset req.sendIov req.sendIdx req.sendPos + j))
  | [], req, req', chunks, _, hc, h => by
    cases h
    exact ⟨rfl, hc, by simp, rfl⟩
  | n :: ns, req, req', chunks, hlen, hc, h => by
    simp only [requestReads, Option.bind_eq_some_iff, Option.map_eq_some_iff, Prod.exists,
      Prod.mk.injEq] at h
    obtain ⟨req₁, bytes, h₁, req₂, rest, hrest, rfl, rfl⟩ := h
    -- the first call, then the rest from where it left the cursor
    obtain ⟨hframe, hc₁, hcount, hoff, hbytes⟩ := requestRead_stream M req n req₁ bytes hlen hc h₁
    have hiov : req₁.sendIov = req.sendIov := by rw [hframe]
    have hpg : req₁.pgtab = req.pgtab := by rw [hframe]
    rw [← hiov] at hlen
    obtain ⟨hiov₂, hc₂, hcount₂, hbytes₂⟩ := requestReads_stream M ns req₁ req₂ rest hlen
      (hiov ▸ hc₁) hrest
    rw [hiov, hoff] at hcount₂ hbytes₂
    rw [hpg] at hbytes₂
    refine ⟨hiov₂.trans hiov, hiov ▸ hc₂, ?_, ?_⟩
    · rw [List.flatten_cons, List.length_append, hcount₂, hcount, List.sum_cons]
      omega
    · rw [List.flatten_cons, List.length_append, List.range_add, List.map_append, List.map_map]
      refine congrArg₂ (· ++ ·) hbytes (hbytes₂.trans (List.map_congr_left fun j _ => ?_))
      simp only [Function.comp_apply, Nat.add_assoc]

theorem request_cursors_stream (M : Space) :
    (∀ iovs : List Iovec, CursorOk iovs 0 0) ∧
    (∀ (req req' : Request) (n : Nat) (bytes : List UInt8),
      (∀ iov ∈ req.sendIov, iov.len < 2 ^ 32) → CursorOk req.sendIov req.sendIdx req.sendPos →
      requestRead M req n = some (req', bytes) →
      CursorOk req.sendIov req'.sendIdx req'.sendPos ∧
        bytes.length =
          min n (iovTotal req.sendIov - cursorOffset req.sendIov req.sendIdx req.sendPos) ∧
        cursorOffset req.sendIov req'.sendIdx req'.sendPos =
          cursorOffset req.sendIov req.sendIdx req.sendPos + bytes.length) ∧
    (∀ (req req' : Request) (ns : List Nat) (chunks : List (List UInt8)),
      (∀ iov ∈ req.sendIov, iov.len < 2 ^ 32) → CursorOk req.sendIov req.sendIdx req.sendPos →
      requestReads M req ns = some (req', chunks) →
      chunks.flatten = (List.range chunks.flatten.length).map fun j => spaceByte M req.pgtab
        (streamAddr req.sendIov (cursorOffset req.sendIov req.sendIdx req.sendPos + j))) ∧
    (∀ (req req' : Request) (M' : Space) (msg : List UInt8) (k : Nat),
      CursorOk req.recvIov req.recvIdx req.recvPos → requestWrite M req msg = some (M', req', k) →
      CursorOk req.recvIov req'.recvIdx req'.recvPos ∧
        k = min msg.length
          (iovTotal req.recvIov - cursorOffset req.recvIov req.recvIdx req.recvPos) ∧
        cursorOffset req.recvIov req'.recvIdx req'.recvPos =
          cursorOffset req.recvIov req.recvIdx req.recvPos + k ∧
        ∃ ps, (ps.map Prod.snd).sum = k ∧
          OnStream req.recvIov (cursorOffset req.recvIov req.recvIdx req.recvPos) ps ∧
          copyOutPieces M req.pgtab msg ps = some M') := by
  refine ⟨cursorOk_zero, ?_, ?_, ?_⟩
  · intro req req' n bytes hlen hc h
    obtain ⟨-, hc', hcount, hoff, -⟩ := requestRead_stream M req n req' bytes hlen hc h
    exact ⟨hc', hcount, hoff⟩
  · intro req req' ns chunks hlen hc h
    exact (requestReads_stream M ns req req' chunks hlen hc h).2.2.2
  · intro req req' M' msg k hc h
    obtain ⟨-, hc', hcount, hoff, hpieces⟩ := requestWrite_stream M req msg M' req' k hc h
    exact ⟨hc', hcount, hoff, hpieces⟩

/-- A cursor can stop at an empty iovec: a read of 3 bytes from kernel buffers of 3, 0 and
2 bytes, on the memory of boot, fills the first and leaves the cursor at the start of the
second, where `send_pos < iov_len[send_idx]` fails. -/
theorem request_cursor_at_empty_iovec :
    (requestRead ⟨vmBoot [], fun _ => 0⟩
      ⟨[⟨0x80001000, 3⟩, ⟨0x80002000, 0⟩, ⟨0x80003000, 2⟩], 0, 0, [], 0, 0, 0⟩ 3).map
      (fun r => (r.1.sendIdx, r.1.sendPos, r.2.length)) = some (1, 0, 3) := by
  simp [requestRead, vmSpaceCopyIn, advanceCursor, virtKernelBase, List.range_succ]

end Argentum.Ipc
