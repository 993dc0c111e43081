import Argentum.Ipc.Transfer

/-!
# Argentum.Kernel.Pipe

The pipes of `kernel/pipe.c`: a ring buffer of `PIPE_BUF_SIZE` bytes, filled by `pipe_write`
from what the writer's request offers (`request_read`) and drained by `pipe_read` into the
reader's request (`request_write`), through the request cursors of `Argentum.Ipc.Transfer`.

A request runs with the pipe's mutex held until it replies or waits on a condition variable:
`pipe_read` waits before it copies, while the write end is open and the pipe is empty, and
`pipe_write` waits between its rounds while the read end is open and the pipe is full. A
request that waits returns where it stopped, and runs again from there after a notify; the
mutex and the condition variables themselves are not modelled, and `k_mutex_lock` is taken to
succeed; a wait that fails replies its error and leaves the pipe as it is. `none` is a
`k_panic`, or the loop of `pipe_write` that never ends when the read end is closed on a full
pipe.

`PipeRing P xs` says that the pipe holds the bytes `xs`, oldest first, in its ring. Every
request keeps it, and so every pipe that requests and closes reach from `pipe_create` has one
(`pipeRing_of_reachable`). The bytes a read passes to `request_write` come off the front of
`xs`, and a write's round goes on its back. But `pipe_write` counts its whole round as written
where `request_read` may give fewer bytes, and `pipe_read` takes its whole round off the ring
where `request_write` may store fewer: the reply is the count asked for, not what moved.
-/

namespace Argentum.Kernel

open Argentum.Mm Argentum.Ipc

/-- `PIPE_BUF_SIZE`: `PAGE_SIZE << PIPE_BUF_ORDER`, with `PIPE_BUF_ORDER` 4. -/
def pipeBufSize : Nat := pageSize <<< 4

/-- `struct Pipe`, without its mutex and condition variables. -/
structure Pipe where
  buf : Nat → UInt8
  size : Nat
  maxSize : Nat
  readOpen : Bool
  writeOpen : Bool
  readPos : Nat
  writePos : Nat

/-- `pipe_create(pipe)` on a buffer that holds `buf`: `page_alloc_block` with no flags does not
clear it. -/
def pipeCreate (buf : Nat → UInt8) : Pipe := ⟨buf, 0, pipeBufSize, true, true, 0, 0⟩

/-- The `n` bytes of the buffer from `pos`. -/
def Pipe.chunk (P : Pipe) (pos n : Nat) : List UInt8 := (List.range n).map fun k => P.buf (pos + k)

/-- The buffer with `bytes` stored from `pos`. -/
def Pipe.store (P : Pipe) (pos : Nat) (bytes : List UInt8) : Nat → UInt8 :=
  fun a => if pos ≤ a ∧ a < pos + bytes.length then bytes.getD (a - pos) 0 else P.buf a

/-- The size of a round of `pipe_read` after `i` of `n` bytes: what the pipe holds and the
request still asks for, but not past the end of the ring ("prevent overflow"). -/
def pipeReadRound (P : Pipe) (n i : Nat) : Nat :=
  if P.readPos + min P.size (n - i) > P.maxSize then P.maxSize - P.readPos
  else min P.size (n - i)

/-- The size of a round of `pipe_write` after `i` of `n` bytes: the room in the pipe, at most
what is left to write, and not past the end of the ring. -/
def pipeWriteRound (P : Pipe) (n i : Nat) : Nat :=
  if P.writePos + min (P.maxSize - P.size) (n - i) > P.maxSize then P.maxSize - P.writePos
  else min (P.maxSize - P.size) (n - i)

/-- What a request has done when it leaves the pipe's mutex. -/
inductive PipeResult
  /-- It waits on a condition variable, `i` bytes into the request. -/
  | waits (P : Pipe) (req : Request) (i : Nat)
  /-- It replies `r`. -/
  | reply (P : Pipe) (M : Space) (req : Request) (r : Int)

/-- The pipe a result leaves. -/
@[simp] def PipeResult.pipe : PipeResult → Pipe
  | .waits P _ _ => P
  | .reply P _ _ _ => P

/-- The bytes a request has moved when it leaves the mutex: its count so far if it waits, and
its reply otherwise. -/
@[simp] def PipeResult.done : PipeResult → Int
  | .waits _ _ i => i
  | .reply _ _ _ r => r

/-- The copy loop of `pipe_read(req, msg)` with `n = msg->u.read.nbyte`, from `i` bytes: each
round hands a chunk of the ring to `request_write`, which copies or panics, and takes the chunk
off the ring. A round moves at least one byte, so `n + 1` rounds are enough. -/
def pipeReadLoop : Nat → Pipe → Space → Request → Nat → Nat → Option (Pipe × Space × Request × Nat)
  | 0, _, _, _, _, _ => none
  | fuel + 1, P, M, req, n, i =>
    if i < n ∧ P.size > 0 then
      let nread := pipeReadRound P n i
      match requestWrite M req (P.chunk P.readPos nread) with
      | none => none
      | some (M, req, _) =>
        let readPos := if P.readPos + nread = P.maxSize then 0 else P.readPos + nread
        pipeReadLoop fuel { P with readPos, size := P.size - nread } M req n (i + nread)
    else some (P, M, req, i)

/-- `pipe_read(req, msg)` for `n = msg->u.read.nbyte`. -/
def pipeRead (P : Pipe) (M : Space) (req : Request) (n : Nat) : Option PipeResult :=
  if P.writeOpen ∧ P.size = 0 then some (.waits P req 0)
  else (pipeReadLoop (n + 1) P M req n 0).map fun x => .reply x.1 x.2.1 x.2.2.1 x.2.2.2

/-- The loop of `pipe_write(req, msg)` with `n = msg->u.write.nbyte`, from `i` bytes: each round
waits for room while the read end is open, then takes a chunk from the request through
`request_read` into the ring and counts all of it. -/
def pipeWriteLoop (M : Space) : Nat → Pipe → Request → Nat → Nat → Option PipeResult
  | 0, _, _, _, _ => none
  | fuel + 1, P, req, n, i =>
    if i < n then
      if P.readOpen ∧ P.size = P.maxSize then some (.waits P req i)
      else
        let nwrite := pipeWriteRound P n i
        match requestRead M req nwrite with
        | none => none
        | some (req, bytes) =>
          let writePos := if P.writePos + nwrite = P.maxSize then 0 else P.writePos + nwrite
          pipeWriteLoop M fuel
            { P with buf := P.store P.writePos bytes, size := P.size + nwrite, writePos } req n
            (i + nwrite)
    else some (.reply P M req i)

/-- `pipe_write(req, msg)` for `n = msg->u.write.nbyte`, or its loop again from `i` bytes after
a wait. -/
def pipeWrite (P : Pipe) (M : Space) (req : Request) (n i : Nat) : Option PipeResult :=
  pipeWriteLoop M (n - i + 1) P req n i

/-- `pipe_close(req, msg)` of the write end (`write`) or of the read end: the pipe, and whether
both ends are closed now and the pipe is freed. -/
def pipeClose (P : Pipe) (write : Bool) : Pipe × Bool :=
  let P := if write then { P with writeOpen := false } else { P with readOpen := false }
  (P, !(P.readOpen || P.writeOpen))

/-! ## The ring -/

/-- The pipe holds the bytes `xs`, oldest first, in its ring from `read_pos`. -/
structure PipeRing (P : Pipe) (xs : List UInt8) : Prop where
  max_pos : 0 < P.maxSize
  size_eq : P.size = xs.length
  size_le : P.size ≤ P.maxSize
  read_lt : P.readPos < P.maxSize
  write_eq : P.writePos = (P.readPos + P.size) % P.maxSize
  cells : ∀ k < xs.length, P.buf ((P.readPos + k) % P.maxSize) = xs.getD k 0

/-- A position of the ring less than one turn past its end. -/
theorem mod_of_lt_two_mul {a m : Nat} (h : a < 2 * m) : a % m = if a < m then a else a - m := by
  split
  · exact Nat.mod_eq_of_lt ‹a < m›
  · rw [Nat.mod_eq_sub_mod (by omega), Nat.mod_eq_of_lt (by omega)]

/-- Moving a position of the ring by `c` to at most its end wraps it to 0 at the end. -/
theorem wrap_eq_mod {pos c m : Nat} (h : pos + c ≤ m) :
    (if pos + c = m then 0 else pos + c) = (pos + c) % m := by
  split
  · simp [*]
  · rw [Nat.mod_eq_of_lt (by omega)]

theorem pipeReadRound_le_size (P : Pipe) (n i : Nat) : pipeReadRound P n i ≤ P.size := by
  unfold pipeReadRound
  split <;> omega

theorem pipeReadRound_le (P : Pipe) (n i : Nat) : pipeReadRound P n i ≤ n - i := by
  unfold pipeReadRound
  split <;> omega

theorem pipeReadRound_le_max {P : Pipe} (h : P.readPos ≤ P.maxSize) (n i : Nat) :
    P.readPos + pipeReadRound P n i ≤ P.maxSize := by
  unfold pipeReadRound
  split <;> omega

theorem pipeReadRound_pos {P : Pipe} (h : P.readPos < P.maxSize) (hs : 0 < P.size) (hi : i < n) :
    0 < pipeReadRound P n i := by
  unfold pipeReadRound
  split <;> omega

theorem pipeWriteRound_le_max {P : Pipe} (h : P.writePos ≤ P.maxSize) (n i : Nat) :
    P.writePos + pipeWriteRound P n i ≤ P.maxSize := by
  unfold pipeWriteRound
  split <;> omega

/-- A round of `pipe_write` fits in the room the pipe has: the clamp at the end of the ring
only cuts a round whose `write_pos` has not wrapped. -/
theorem PipeRing.writeRound_le {P : Pipe} {xs : List UInt8} (R : PipeRing P xs) (n i : Nat) :
    pipeWriteRound P n i ≤ P.maxSize - P.size := by
  have hw := R.write_eq
  rw [mod_of_lt_two_mul (by have := R.read_lt; have := R.size_le; omega)] at hw
  unfold pipeWriteRound
  split <;> split at hw <;> omega

/-- A round of `pipe_read` hands `request_write` the oldest bytes of the ring, in order. -/
theorem PipeRing.chunk_readRound {P : Pipe} {xs : List UInt8} (R : PipeRing P xs) (n i : Nat) :
    P.chunk P.readPos (pipeReadRound P n i) = xs.take (pipeReadRound P n i) := by
  have hc := pipeReadRound_le_size P n i
  have hmax := pipeReadRound_le_max (Nat.le_of_lt R.read_lt) n i
  apply List.ext_getElem
  · simp [Pipe.chunk, ← R.size_eq, hc]
  · intro k h₁ h₂
    have hk : k < xs.length := by simp [Pipe.chunk] at h₁; rw [← R.size_eq]; omega
    have hcell := R.cells k hk
    rw [Nat.mod_eq_of_lt (by simp [Pipe.chunk] at h₁; omega)] at hcell
    simp [Pipe.chunk, hcell, List.getElem?_eq_getElem hk]

/-- A round of `pipe_read` that takes `c` bytes off the ring leaves the rest of them. -/
theorem PipeRing.readRound {P : Pipe} {xs : List UInt8} (R : PipeRing P xs) {c : Nat}
    (hc : c ≤ P.size) (hmax : P.readPos + c ≤ P.maxSize) :
    PipeRing
      { P with
        readPos := if P.readPos + c = P.maxSize then 0 else P.readPos + c
        size := P.size - c }
      (xs.drop c) where
  max_pos := R.max_pos
  size_eq := by simp [R.size_eq]
  size_le := by have := R.size_le; dsimp only; omega
  read_lt := by have := R.max_pos; dsimp only; split <;> omega
  write_eq := by
    dsimp only
    rw [wrap_eq_mod hmax, Nat.mod_add_mod, R.write_eq]
    congr 1
    omega
  cells := by
    intro k hk
    have hk' : c + k < xs.length := by simp at hk; omega
    dsimp only
    rw [wrap_eq_mod hmax, Nat.mod_add_mod, Nat.add_assoc, R.cells (c + k) hk']
    simp [List.getD_eq_getElem?_getD]

/-- The bytes from `pos` of a buffer that `bytes` were stored in at `pos`: those bytes, then
what the buffer held before. -/
theorem Pipe.store_getD (P : Pipe) (pos : Nat) (bytes : List UInt8) {j m : Nat}
    (hj : j < bytes.length + m) :
    (bytes ++ P.chunk (pos + bytes.length) m).getD j 0 = P.store pos bytes (pos + j) := by
  unfold Pipe.store
  by_cases hb : j < bytes.length
  · simp [hb, List.getD_eq_getElem?_getD, List.getElem?_append_left]
  · have hm : j - bytes.length < m := by omega
    simp [hb, List.getD_eq_getElem?_getD, List.getElem?_append_right (Nat.le_of_not_lt hb),
      Pipe.chunk, hm]
    congr 1
    omega


/-- The cells that hold the ring's bytes are none of the `c` after `write_pos`, while `c` is at
most the room the pipe has. -/
theorem PipeRing.held_not_free {P : Pipe} {xs : List UInt8} (R : PipeRing P xs) {k c : Nat}
    (hk : k < P.size) (hc : c ≤ P.maxSize - P.size) :
    ¬(P.writePos ≤ (P.readPos + k) % P.maxSize ∧
      (P.readPos + k) % P.maxSize < P.writePos + c) := by
  have hw := R.write_eq
  have := R.read_lt
  have := R.size_le
  rw [mod_of_lt_two_mul (by omega)] at hw ⊢
  split at hw <;> split <;> omega

/-- A round of `pipe_write` of `c` bytes, of which the request gave `bytes`, puts those bytes,
and then the `c - bytes.length` bytes the buffer held after them, on the back of the ring. -/
theorem PipeRing.writeRound {P : Pipe} {xs : List UInt8} (R : PipeRing P xs) {c : Nat}
    (hc : c ≤ P.maxSize - P.size) (hmax : P.writePos + c ≤ P.maxSize) {bytes : List UInt8}
    (hb : bytes.length ≤ c) :
    PipeRing
      { P with
        buf := P.store P.writePos bytes
        size := P.size + c
        writePos := if P.writePos + c = P.maxSize then 0 else P.writePos + c }
      (xs ++ (bytes ++ P.chunk (P.writePos + bytes.length) (c - bytes.length))) where
  max_pos := R.max_pos
  size_eq := by simp [Pipe.chunk, R.size_eq]; omega
  size_le := by have := R.size_le; dsimp only; omega
  read_lt := R.read_lt
  write_eq := by
    dsimp only
    rw [wrap_eq_mod hmax, R.write_eq, Nat.mod_add_mod, Nat.add_assoc]
  cells := by
    intro k hk
    dsimp only
    by_cases hx : k < xs.length
    · -- a byte the ring held before: the round stores in none of its cells
      have hfree := R.held_not_free (R.size_eq ▸ hx) (Nat.le_trans hb hc)
      rw [List.getD_append _ _ _ _ hx, ← R.cells k hx]
      unfold Pipe.store
      rw [if_neg (by omega)]
    · -- a byte of the round, at `write_pos + j`
      obtain ⟨j, rfl⟩ : ∃ j, k = xs.length + j := ⟨k - xs.length, by omega⟩
      have hj : j < bytes.length + (c - bytes.length) := by simp [Pipe.chunk] at hk; omega
      rw [List.getD_append_right _ _ _ _ (by omega), Nat.add_sub_cancel_left,
        Pipe.store_getD P _ bytes hj, ← R.size_eq, ← Nat.add_assoc, ← Nat.mod_add_mod,
        ← R.write_eq, Nat.mod_eq_of_lt (by omega)]


/-! ## Requests keep the ring -/

/-- The copy loop of `pipe_read` takes `k` bytes off the front of the ring and counts all of
them, whatever `request_write` stored. -/
theorem PipeRing.readLoop {fuel : Nat} {P : Pipe} {M : Space} {req : Request} {n i : Nat}
    {xs : List UInt8} (R : PipeRing P xs) {P' : Pipe} {M' : Space} {req' : Request} {i' : Nat}
    (h : pipeReadLoop fuel P M req n i = some (P', M', req', i')) :
    ∃ k, PipeRing P' (xs.drop k) ∧ i' = i + k ∧ k ≤ n - i := by
  induction fuel generalizing P M req i xs with
  | zero => simp [pipeReadLoop] at h
  | succ fuel ih =>
    by_cases hgo : i < n ∧ P.size > 0
    · -- a round of `c` bytes, then the rest of the loop on the rest of the ring
      rw [pipeReadLoop, if_pos hgo] at h
      dsimp only at h
      split at h
      · simp at h
      · have hc := pipeReadRound_le_size P n i
        have hmax := pipeReadRound_le_max (Nat.le_of_lt R.read_lt) n i
        obtain ⟨k, R', rfl, hk⟩ := ih (R.readRound hc hmax) h
        have := pipeReadRound_le P n i
        rw [List.drop_drop] at R'
        exact ⟨pipeReadRound P n i + k, R', by omega, by omega⟩
    · rw [pipeReadLoop, if_neg hgo, Option.some.injEq, Prod.mk.injEq] at h
      obtain ⟨rfl, -, -, rfl⟩ := h
      exact ⟨0, by simpa using R, rfl, Nat.zero_le _⟩


/-- The copy loop of `pipe_read` ends within its fuel: each round moves a byte. -/
theorem PipeRing.readLoop_fuel {fuel : Nat} {P : Pipe} {M : Space} {req : Request} {n i : Nat}
    {xs : List UInt8} (R : PipeRing P xs) (hfuel : n - i < fuel) :
    pipeReadLoop (fuel + 1) P M req n i = pipeReadLoop fuel P M req n i := by
  induction fuel generalizing P M req i xs with
  | zero => omega
  | succ fuel ih =>
    by_cases hgo : i < n ∧ P.size > 0
    · have hc := pipeReadRound_pos R.read_lt hgo.2 hgo.1
      rw [pipeReadLoop, if_pos hgo, pipeReadLoop, if_pos hgo]
      dsimp only
      split
      · rfl
      · exact ih (R.readRound (pipeReadRound_le_size P n i)
          (pipeReadRound_le_max (Nat.le_of_lt R.read_lt) n i)) (by omega)
    · rw [pipeReadLoop, if_neg hgo, pipeReadLoop, if_neg hgo]

theorem PipeRing.write_lt {P : Pipe} {xs : List UInt8} (R : PipeRing P xs) :
    P.writePos < P.maxSize := by
  rw [R.write_eq]
  exact Nat.mod_lt _ R.max_pos

/-- The loop of `pipe_write` puts `ys` on the back of the ring and counts all of them. -/
theorem PipeRing.writeLoop {M : Space} {fuel : Nat} {P : Pipe} {req : Request} {n i : Nat}
    {xs : List UInt8} (R : PipeRing P xs) {r : PipeResult}
    (h : pipeWriteLoop M fuel P req n i = some r) :
    ∃ ys, PipeRing r.pipe (xs ++ ys) ∧ r.done = i + ys.length := by
  induction fuel generalizing P req i xs with
  | zero => simp [pipeWriteLoop] at h
  | succ fuel ih =>
    by_cases hgo : i < n
    · by_cases hfull : P.readOpen ∧ P.size = P.maxSize
      · -- it waits for a reader to make room
        rw [pipeWriteLoop, if_pos hgo, if_pos hfull, Option.some.injEq] at h
        subst h
        exact ⟨[], by simpa using R, by simp⟩
      · -- a round: what `request_read` gives, then stale bytes up to the round's size
        rw [pipeWriteLoop, if_pos hgo, if_neg hfull] at h
        dsimp only at h
        split at h
        · simp at h
        · rename_i req₁ bytes hread
          have hb := requestRead_length_le M req _ req₁ bytes hread
          have hmax := pipeWriteRound_le_max (Nat.le_of_lt R.write_lt) n i
          obtain ⟨ys, R', hdone⟩ := ih (R.writeRound (R.writeRound_le n i) hmax hb) h
          refine ⟨(bytes ++
              P.chunk (P.writePos + bytes.length) (pipeWriteRound P n i - bytes.length)) ++ ys,
            by simpa only [List.append_assoc] using R', ?_⟩
          simp only [hdone, List.length_append, Pipe.chunk, List.length_map, List.length_range]
          omega
    · rw [pipeWriteLoop, if_neg hgo, Option.some.injEq] at h
      subst h
      exact ⟨[], by simpa using R, by simp⟩


/-- `pipe_create` makes an empty ring. -/
theorem PipeRing.create (buf : Nat → UInt8) : PipeRing (pipeCreate buf) [] where
  max_pos := by show 0 < pipeBufSize; decide
  size_eq := rfl
  size_le := Nat.zero_le _
  read_lt := by show 0 < pipeBufSize; decide
  write_eq := rfl
  cells := by simp

/-- `pipe_read` takes `k` bytes off the front of the ring and counts them. -/
theorem PipeRing.pipeRead {P : Pipe} {M : Space} {req : Request} {n : Nat} {xs : List UInt8}
    (R : PipeRing P xs) {r : PipeResult} (h : pipeRead P M req n = some r) :
    ∃ k, PipeRing r.pipe (xs.drop k) ∧ r.done = k := by
  unfold Argentum.Kernel.pipeRead at h
  split_ifs at h with hwait
  · -- it waits for a writer
    rw [Option.some.injEq] at h
    subst h
    exact ⟨0, by simpa using R, rfl⟩
  · obtain ⟨⟨P', M', req', i'⟩, hloop, rfl⟩ := Option.map_eq_some_iff.mp h
    obtain ⟨k, R', rfl, -⟩ := R.readLoop hloop
    exact ⟨k, R', by simp⟩

/-- `pipe_write` puts `ys` on the back of the ring and counts them. -/
theorem PipeRing.pipeWrite {P : Pipe} {M : Space} {req : Request} {n i : Nat} {xs : List UInt8}
    (R : PipeRing P xs) {r : PipeResult} (h : pipeWrite P M req n i = some r) :
    ∃ ys, PipeRing r.pipe (xs ++ ys) ∧ r.done = i + ys.length :=
  R.writeLoop h

/-- `pipe_close` leaves the ring as it is. -/
theorem PipeRing.pipeClose {P : Pipe} {xs : List UInt8} (R : PipeRing P xs) (write : Bool) :
    PipeRing (pipeClose P write).1 xs := by
  cases write <;> exact ⟨R.max_pos, R.size_eq, R.size_le, R.read_lt, R.write_eq, R.cells⟩

/-! ## Every reachable pipe -/

/-- The pipes that `pipe_create` on a buffer holding `buf` and then requests and closes, in any
order, reach. A request that waits has left the pipe as its result says, and goes on later as a
request of its own: `pipe_read` again, or `pipe_write` from the count it had; a wait that fails
replies its error and leaves the pipe as it is. -/
inductive PipeReachable (buf : Nat → UInt8) : Pipe → Prop
  | create : PipeReachable buf (pipeCreate buf)
  | read {P : Pipe} {M : Space} {req : Request} {n : Nat} {r : PipeResult} :
      PipeReachable buf P → pipeRead P M req n = some r → PipeReachable buf r.pipe
  | write {P : Pipe} {M : Space} {req : Request} {n i : Nat} {r : PipeResult} :
      PipeReachable buf P → pipeWrite P M req n i = some r → PipeReachable buf r.pipe
  | close {P : Pipe} (write : Bool) : PipeReachable buf P → PipeReachable buf (pipeClose P write).1

/-- Every pipe that requests and closes reach holds a ring of bytes. -/
theorem pipeRing_of_reachable {buf : Nat → UInt8} {P : Pipe} (h : PipeReachable buf P) :
    ∃ xs, PipeRing P xs := by
  induction h with
  | create => exact ⟨[], PipeRing.create buf⟩
  | read _ hr ih =>
    obtain ⟨xs, R⟩ := ih
    obtain ⟨k, R', -⟩ := R.pipeRead hr
    exact ⟨_, R'⟩
  | write _ hw ih =>
    obtain ⟨xs, R⟩ := ih
    obtain ⟨ys, R', -⟩ := R.pipeWrite hw
    exact ⟨_, R'⟩
  | close write _ ih =>
    obtain ⟨xs, R⟩ := ih
    exact ⟨xs, R.pipeClose write⟩

/-- The positions of every pipe that requests and closes reach: `size` within `max_size`, both
positions in the ring, and `write_pos` `size` bytes after `read_pos`. -/
theorem pipe_positions_of_reachable {buf : Nat → UInt8} {P : Pipe} (h : PipeReachable buf P) :
    P.size ≤ P.maxSize ∧ P.readPos < P.maxSize ∧ P.writePos < P.maxSize ∧
      P.writePos = (P.readPos + P.size) % P.maxSize := by
  obtain ⟨xs, R⟩ := pipeRing_of_reachable h
  exact ⟨R.size_le, R.read_lt, R.write_lt, R.write_eq⟩

/-- A read of an empty pipe whose write end is closed replies 0 and changes nothing. -/
theorem pipeRead_closed_empty {P : Pipe} (hw : P.writeOpen = false) (hs : P.size = 0)
    (M : Space) (req : Request) (n : Nat) :
    pipeRead P M req n = some (.reply P M req 0) := by
  simp [Argentum.Kernel.pipeRead, pipeReadLoop, hw, hs]

/-! ## A closed read end -/

/-- A write to a full pipe whose read end is closed never returns: each round has no room, so
it writes nothing and counts nothing, and the loop goes round with the mutex held. -/
theorem pipeWriteLoop_closed_full {M : Space} {fuel : Nat} {P : Pipe} {req : Request} {n i : Nat}
    (hr : P.readOpen = false) (hs : P.size = P.maxSize) (hw : P.writePos < P.maxSize)
    (hi : i < n) : pipeWriteLoop M fuel P req n i = none := by
  induction fuel generalizing P with
  | zero => rfl
  | succ fuel ih =>
    have h0 : pipeWriteRound P n i = 0 := by
      unfold pipeWriteRound
      split <;> omega
    rw [pipeWriteLoop, if_pos hi, if_neg (by simp [hr])]
    rw [h0]
    dsimp only
    rw [requestRead_zero]
    dsimp only
    exact ih (by simpa using hr) (by simpa using hs) (by split <;> simp <;> omega)

/-- A writer on a full pipe, one that requests and closes reach, whose read end then closes
never returns: neither a write that starts after the close nor one that was waiting on the full
pipe and wakes from `pipe_close`'s notify. No fuel is enough. -/
theorem pipe_write_spins_after_read_close {buf : Nat → UInt8} {P : Pipe}
    (hP : PipeReachable buf P) (hfull : P.size = P.maxSize) (M : Space) (req : Request)
    {n i : Nat} (hi : i < n) (fuel : Nat) :
    pipeWriteLoop M fuel (pipeClose P false).1 req n i = none := by
  obtain ⟨-, -, hw, -⟩ := pipe_positions_of_reachable hP
  exact pipeWriteLoop_closed_full rfl hfull hw hi

/-- From boot, a writer fills a new pipe with the 65536 bytes of sixteen user pages; once the
reader closes, a write of one byte spins. -/
theorem pipe_write_spins_after_read_close_fill :
    ∃ P, PipeReachable (fun _ => 0) P ∧ P.size = P.maxSize ∧
      pipeWriteLoop ⟨vmBoot [], fun _ => 0⟩ 100000 (pipeClose P false).1
        ⟨[⟨0, 1⟩], 0, 0, [], 0, 0, 0⟩ 1 0 = none := by
  have hfill : ((vmUserAlloc (vmBoot (List.range' 5 20)) 0 0 65536
      ⟨true, true, false, false, true, false, false⟩).bind fun p =>
        (pipeWrite (pipeCreate fun _ => 0) ⟨p.1, fun _ => 0⟩ ⟨[⟨0, 65536⟩], 0, 0, [], 0, 0, 0⟩
          65536 0).map fun r => (r.pipe.size, r.pipe.maxSize)) = some (65536, 65536) := by
    decide +kernel
  obtain ⟨_, -, hw⟩ := Option.bind_eq_some_iff.mp hfill
  obtain ⟨r, hr, hs⟩ := Option.map_eq_some_iff.mp hw
  have hfull : r.pipe.size = r.pipe.maxSize := by
    obtain ⟨h1, h2⟩ := Prod.mk.inj hs
    rw [h1, h2]
  have hP : PipeReachable (fun _ => 0) r.pipe := .write .create hr
  exact ⟨r.pipe, hP, hfull, pipe_write_spins_after_read_close hP hfull _ _ Nat.one_pos _⟩

/-! ## A short receive iovec -/

/-- A read whose receive iovec is shorter than its byte count loses bytes of the pipe. From
boot, user page 0 of table 0 holds `[7, 9]`, which a writer writes to a new pipe. A reader then
asks for 2 bytes with a receive iovec of 1 byte at 16, a request that `sys_ipc_sendv` builds
from any user iovecs: the read replies 2 and empties the pipe, but only the 7 reaches the
reader's memory. Once the writer closes its end, the next read replies 0: the 9 is gone. -/
theorem short_read_loses_byte :
    (do
      let (S, _) ← vmUserAlloc (vmBoot [5, 6, 7, 8]) 0 0 4096
        ⟨true, true, false, false, true, false, false⟩
      let (S, _) ← vmCopyOut S 0 (fun i => [7, 9].getD i 0) 0 2
      let w ← pipeWrite (pipeCreate fun _ => 0) ⟨S, fun _ => 0⟩ ⟨[⟨0, 2⟩], 0, 0, [], 0, 0, 0⟩ 2 0
      let .reply P M _ n ← pipeRead w.pipe ⟨S, fun _ => 0⟩ ⟨[], 0, 0, [⟨16, 1⟩], 0, 0, 0⟩ 2
        | none
      let .ok bytes ← vmCopyIn M.vm 0 16 2 | none
      let r ← pipeRead (pipeClose P true).1 M ⟨[], 0, 0, [⟨16, 1⟩], 0, 0, 0⟩ 2
      some (w.done, n, bytes, P.size, r.done)) = some (2, 2, [7, 0], 0, 0) := by
  decide +kernel

end Argentum.Kernel
