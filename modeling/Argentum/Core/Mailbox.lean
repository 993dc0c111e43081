import Argentum.Lib.RingQueue
import Argentum.Core.Sched

/-!
# Argentum.Core.Mailbox

The mailbox of `kernel/core/mailbox.c`: a ring of `capacity = buf_size / msg_size` message slots
in a buffer of bytes, with a read pointer, a write pointer and the count `size`. Every IPC
request of the kernel goes through one (`endpoint_init`).

The pointers are offsets from `buf_start`, and `buf` holds the bytes of the buffer. Each call
runs under the mailbox's spinlock, so a run of the tasks that use a mailbox, in any interleaving,
is a sequence of `k_mailbox_try_send_locked` and `k_mailbox_try_receive_locked` calls
(`MailboxCall`): `k_mailbox_try_send` makes one, and the loop of `k_mailbox_timed_send` makes
one per pass, sleeping between them with the lock released and the mailbox as it was. The wake-ups
of `_k_sched_wakeup_one` change tasks, not the mailbox, and are left to the scheduler.

`MailboxInv` is the shape of the ring, and `KMailBox.contents` the queue it holds, read through
`RingQueue.view`. A send appends its message and a receive returns the front
(`MailboxInv.trySend`, `MailboxInv.tryReceive`), so along every run the messages sent are the
messages received followed by the contents (`MailboxTrace.Inv.spec`).

When `buf_size < msg_size` the ring has no slot: `buf_end = buf_start`, the pointers stay at
`buf_start`, which is not inside `[buf_start, buf_end)`, and every try fails
(`mailbox_small_buffer_no_slot`).
-/

namespace Argentum.Core

/-- `struct KMailBox`: the pointers are offsets from `buf_start`, and `buf` is the bytes of the
buffer. -/
structure KMailBox where
  bufEnd : Nat
  readPtr : Nat
  writePtr : Nat
  size : Nat
  capacity : Nat
  msgSize : Nat
  buf : Nat → UInt8

/-- `k_mailbox_create(mailbox, msg_size, buf, buf_size)` on a buffer holding `buf`. A zero
`msg_size` divides by zero. -/
def kMailboxCreate (msgSize : Nat) (buf : Nat → UInt8) (bufSize : Nat) : Option KMailBox :=
  if msgSize = 0 then none
  else
    some {
      bufEnd := bufSize - bufSize % msgSize
      readPtr := 0
      writePtr := 0
      size := 0
      capacity := bufSize / msgSize
      msgSize := msgSize
      buf := buf }

/-- `ENDPOINT_MBOX_CAPACITY`. -/
def endpointMboxCapacity : Nat := 20

/-- `endpoint_init(endpoint)`: a mailbox of pointers, in `mbox_buf`. -/
def endpointInit (buf : Nat → UInt8) : Option KMailBox :=
  kMailboxCreate 4 buf (endpointMboxCapacity * 4)

namespace KMailBox

/-- `k_memmove(buf_start + dst, message, msg_size)`, `message` the bytes at the pointer the
caller passes. -/
def copyIn (mb : KMailBox) (dst : Nat) (message : Nat → UInt8) : Nat → UInt8 :=
  fun a => if dst ≤ a ∧ a < dst + mb.msgSize then message (a - dst) else mb.buf a

/-- The `msg_size` bytes at offset `src`, which `k_memmove(message, buf_start + src, msg_size)`
copies out. -/
def bytesAt (mb : KMailBox) (src : Nat) : List UInt8 :=
  (List.range mb.msgSize).map fun i => mb.buf (src + i)

/-- `ptr += msg_size; if (ptr >= buf_end) ptr = buf_start;` -/
def advance (mb : KMailBox) (ptr : Nat) : Nat :=
  if mb.bufEnd ≤ ptr + mb.msgSize then 0 else ptr + mb.msgSize

end KMailBox

/-- The message a sender passes: the `msg_size` bytes at its pointer. -/
def messageBytes (msgSize : Nat) (message : Nat → UInt8) : List UInt8 :=
  (List.range msgSize).map message

/-- `k_mailbox_try_send_locked(mailbox, message)`. -/
def kMailboxTrySendLocked (mb : KMailBox) (message : Nat → UInt8) : KMailBox × Int :=
  if mb.size = mb.capacity then (mb, -eAgain)
  else
    ({ mb with
        buf := mb.copyIn mb.writePtr message
        writePtr := mb.advance mb.writePtr
        size := mb.size + 1 }, 0)

/-- `k_mailbox_try_receive_locked(mailbox, message)`: the result, and the bytes copied to
`message`. -/
def kMailboxTryReceiveLocked (mb : KMailBox) : KMailBox × Int × Option (List UInt8) :=
  if mb.size = 0 then (mb, -eAgain, none)
  else
    ({ mb with
        readPtr := mb.advance mb.readPtr
        size := mb.size - 1 }, 0, some (mb.bytesAt mb.readPtr))

/-- One call under the mailbox's lock. -/
inductive MailboxCall
  | send (message : Nat → UInt8)
  | receive

/-- A run so far: the mailbox, the messages the successful sends passed, and the messages the
successful receives returned. -/
structure MailboxTrace where
  mb : KMailBox
  sent : List (List UInt8)
  received : List (List UInt8)

/-- A call, and what it sends or receives. -/
def mailboxStep (t : MailboxTrace) : MailboxCall → MailboxTrace
  | .send message =>
    let r := kMailboxTrySendLocked t.mb message
    { mb := r.1
      sent := if r.2 = 0 then t.sent ++ [messageBytes t.mb.msgSize message] else t.sent
      received := t.received }
  | .receive =>
    let r := kMailboxTryReceiveLocked t.mb
    { mb := r.1
      sent := t.sent
      received := t.received ++ r.2.2.toList }

/-- A run of calls. -/
def mailboxRun (t : MailboxTrace) (calls : List MailboxCall) : MailboxTrace :=
  calls.foldl mailboxStep t

/-! ## The ring and its contents -/

namespace KMailBox

/-- The slot `read_ptr` points to. -/
def head (mb : KMailBox) : Nat := mb.readPtr / mb.msgSize

/-- The message in slot `k`. -/
def slot (mb : KMailBox) (k : Nat) : List UInt8 := mb.bytesAt (k * mb.msgSize)

/-- The messages in the mailbox, oldest first. -/
def contents (mb : KMailBox) : List (List UInt8) :=
  RingQueue.view mb.slot mb.capacity mb.head mb.size

end KMailBox

/-- The shape of a mailbox: `capacity` slots of `msg_size` bytes up to `buf_end`, the read
pointer at the start of a slot, and the write pointer `size` slots after it, around the ring. -/
structure MailboxInv (mb : KMailBox) : Prop where
  msgSize_pos : 0 < mb.msgSize
  bufEnd_eq : mb.bufEnd = mb.capacity * mb.msgSize
  read_eq : mb.readPtr = mb.head * mb.msgSize
  head_lt : 0 < mb.capacity → mb.head < mb.capacity
  read_zero : mb.capacity = 0 → mb.readPtr = 0
  size_le : mb.size ≤ mb.capacity
  write_eq : mb.writePtr = (mb.head + mb.size) % mb.capacity * mb.msgSize

/-- Copying a message into slot `k` changes slot `k` and no other. -/
theorem KMailBox.slot_copyIn {mb mb' : KMailBox} {k : Nat} {message : Nat → UInt8}
    (hbuf : mb'.buf = mb.copyIn (k * mb.msgSize) message) (hm : mb'.msgSize = mb.msgSize) :
    mb'.slot = Function.update mb.slot k (messageBytes mb.msgSize message) := by
  funext k'
  unfold KMailBox.slot KMailBox.bytesAt messageBytes
  rw [hbuf, hm]
  by_cases hk : k' = k
  · subst hk
    rw [Function.update_self]
    apply List.map_congr_left
    intro i hi
    have hi := List.mem_range.mp hi
    simp [KMailBox.copyIn, hi]
  · rw [Function.update_of_ne hk]
    apply List.map_congr_left
    intro i hi
    have hi := List.mem_range.mp hi
    -- the byte `i` of slot `k'` is outside slot `k`
    have hout : ¬(k * mb.msgSize ≤ k' * mb.msgSize + i ∧
        k' * mb.msgSize + i < k * mb.msgSize + mb.msgSize) := by
      rintro ⟨h1, h2⟩
      have hlt1 : k * mb.msgSize < (k' + 1) * mb.msgSize := by rw [Nat.add_one_mul]; omega
      have hlt2 : k' * mb.msgSize < (k + 1) * mb.msgSize := by rw [Nat.add_one_mul]; omega
      have := Nat.lt_of_mul_lt_mul_right hlt1
      have := Nat.lt_of_mul_lt_mul_right hlt2
      omega
    simp only [KMailBox.copyIn, hout, if_false]

namespace MailboxInv

variable {mb : KMailBox} (hI : MailboxInv mb)
include hI

/-- A pointer at slot `k` moves to the next slot of the ring. -/
theorem advance_eq (k : Nat) :
    mb.advance (k * mb.msgSize) = RingQueue.next mb.capacity k * mb.msgSize := by
  have hiff : mb.capacity * mb.msgSize ≤ (k + 1) * mb.msgSize ↔ mb.capacity ≤ k + 1 :=
    Nat.mul_le_mul_right_iff hI.msgSize_pos
  unfold KMailBox.advance RingQueue.next
  rw [hI.bufEnd_eq, ← Nat.add_one_mul]
  by_cases hwrap : mb.capacity ≤ k + 1
  · rw [if_pos (hiff.mpr hwrap), if_pos hwrap, Nat.zero_mul]
  · rw [if_neg (mt hiff.mp hwrap), if_neg hwrap]

/-- The slot of `read_ptr` is `head` again after a pointer of the form `k * msg_size`. -/
theorem head_of_read {k : Nat} : (k * mb.msgSize) / mb.msgSize = k :=
  Nat.mul_div_cancel k hI.msgSize_pos

end MailboxInv

/-! ## Each call keeps the shape -/

/-- A new mailbox is empty, with its pointers at `buf_start`. -/
theorem kMailboxCreate_inv {msgSize bufSize : Nat} {buf : Nat → UInt8} {mb : KMailBox}
    (h : kMailboxCreate msgSize buf bufSize = some mb) :
    MailboxInv mb ∧ mb.contents = [] ∧ mb.capacity = bufSize / msgSize := by
  unfold kMailboxCreate at h
  split at h
  · cases h
  · next hm =>
    cases h
    refine ⟨⟨Nat.pos_of_ne_zero hm, ?_, by simp [KMailBox.head],
      fun h => by simpa [KMailBox.head] using h, fun _ => rfl, Nat.zero_le _,
      by simp [KMailBox.head]⟩, rfl, rfl⟩
    -- `buf_size - buf_size % msg_size` is the slots' bytes
    show bufSize - bufSize % msgSize = bufSize / msgSize * msgSize
    have := Nat.div_add_mod bufSize msgSize
    rw [Nat.mul_comm]
    omega

-- `endpoint_init` gives each endpoint `ENDPOINT_MBOX_CAPACITY` slots
example : (endpointInit fun _ => 0).map KMailBox.capacity = some endpointMboxCapacity := rfl

/-- A send to a mailbox with room writes the slot after the last message and appends it. -/
theorem MailboxInv.trySend {mb : KMailBox} (hI : MailboxInv mb) (message : Nat → UInt8)
    (hroom : mb.size ≠ mb.capacity) :
    MailboxInv (kMailboxTrySendLocked mb message).1 ∧
      (kMailboxTrySendLocked mb message).2 = 0 ∧
      (kMailboxTrySendLocked mb message).1.contents =
        mb.contents ++ [messageBytes mb.msgSize message] := by
  have hcap : 0 < mb.capacity := by have := hI.size_le; omega
  have hlt : mb.size < mb.capacity := by have := hI.size_le; omega
  have hw : (mb.head + mb.size) % mb.capacity < mb.capacity := Nat.mod_lt _ hcap
  -- the write pointer moves one slot on
  have hwrite : mb.advance mb.writePtr = (mb.head + (mb.size + 1)) % mb.capacity * mb.msgSize := by
    rw [hI.write_eq, hI.advance_eq, RingQueue.next_eq_mod hw, Nat.mod_add_mod, Nat.add_assoc]
  have hr : kMailboxTrySendLocked mb message = ({ mb with
      buf := mb.copyIn mb.writePtr message
      writePtr := mb.advance mb.writePtr
      size := mb.size + 1 }, 0) := if_neg hroom
  rw [hr]
  refine ⟨⟨hI.msgSize_pos, hI.bufEnd_eq, hI.read_eq, hI.head_lt, hI.read_zero, hlt, hwrite⟩, rfl,
    ?_⟩
  have hslot := @KMailBox.slot_copyIn mb { mb with
      buf := mb.copyIn mb.writePtr message
      writePtr := mb.advance mb.writePtr
      size := mb.size + 1 } _ _ (by rw [hI.write_eq]) rfl
  unfold KMailBox.contents
  rw [hslot, ← RingQueue.view_push _ hlt]
  rfl

/-- A receive from a mailbox with messages returns the front one and takes it off. -/
theorem MailboxInv.tryReceive {mb : KMailBox} (hI : MailboxInv mb) (hsize : mb.size ≠ 0) :
    MailboxInv (kMailboxTryReceiveLocked mb).1 ∧ (kMailboxTryReceiveLocked mb).2.1 = 0 ∧
      ∃ msg, (kMailboxTryReceiveLocked mb).2.2 = some msg ∧
        mb.contents = msg :: (kMailboxTryReceiveLocked mb).1.contents := by
  have hcap : 0 < mb.capacity := by have := hI.size_le; omega
  have hh := hI.head_lt hcap
  obtain ⟨n, hn⟩ : ∃ n, mb.size = n + 1 := ⟨mb.size - 1, by omega⟩
  -- the read pointer moves to the next slot
  have hread : mb.advance mb.readPtr = RingQueue.next mb.capacity mb.head * mb.msgSize := by
    rw [hI.read_eq, hI.advance_eq]
  have hhead : mb.advance mb.readPtr / mb.msgSize = RingQueue.next mb.capacity mb.head := by
    rw [hread, hI.head_of_read]
  have hwrite : mb.writePtr =
      (RingQueue.next mb.capacity mb.head + (mb.size - 1)) % mb.capacity * mb.msgSize := by
    have hs : mb.head + mb.size = mb.head + 1 + (mb.size - 1) := by omega
    rw [hI.write_eq, RingQueue.next_eq_mod hh, Nat.mod_add_mod, ← hs]
  have hr : kMailboxTryReceiveLocked mb = ({ mb with
      readPtr := mb.advance mb.readPtr
      size := mb.size - 1 }, 0, some (mb.bytesAt mb.readPtr)) := if_neg hsize
  rw [hr]
  have hsize' : mb.size - 1 ≤ mb.capacity := by have := hI.size_le; omega
  refine ⟨⟨hI.msgSize_pos, hI.bufEnd_eq, ?_, fun _ => ?_,
    fun h => absurd h (Nat.pos_iff_ne_zero.mp hcap), hsize', ?_⟩, rfl, mb.bytesAt mb.readPtr, rfl,
    ?_⟩
  · show mb.advance mb.readPtr = mb.advance mb.readPtr / mb.msgSize * mb.msgSize
    rw [hhead, hread]
  · show mb.advance mb.readPtr / mb.msgSize < mb.capacity
    rw [hhead]
    exact RingQueue.next_lt hh
  · show mb.writePtr = (mb.advance mb.readPtr / mb.msgSize + (mb.size - 1)) % mb.capacity *
      mb.msgSize
    rw [hhead, hwrite]
  · unfold KMailBox.contents
    show RingQueue.view mb.slot mb.capacity mb.head mb.size = mb.bytesAt mb.readPtr ::
      RingQueue.view mb.slot mb.capacity (mb.advance mb.readPtr / mb.msgSize) (mb.size - 1)
    rw [hhead, hn, RingQueue.view_pop _ hh, Nat.add_sub_cancel, hI.read_eq]
    rfl

/-! ## Along every run -/

/-- What a run keeps: the ring's shape, and every message sent either received, in order, or
still in the mailbox behind those. -/
structure MailboxTrace.Inv (t : MailboxTrace) : Prop where
  ring : MailboxInv t.mb
  fifo : t.sent = t.received ++ t.mb.contents

/-- Each call keeps the run's invariant. -/
theorem MailboxTrace.Inv.step {t : MailboxTrace} (hI : t.Inv) (call : MailboxCall) :
    (mailboxStep t call).Inv := by
  cases call with
  | send message =>
    by_cases hfull : t.mb.size = t.mb.capacity
    · -- full: `K_ERR_AGAIN`, nothing changes
      have hr : kMailboxTrySendLocked t.mb message = (t.mb, -eAgain) := by
        simp [kMailboxTrySendLocked, hfull]
      simp only [mailboxStep, hr]
      exact ⟨hI.ring, by simpa [eAgain] using hI.fifo⟩
    · obtain ⟨hring, hr, hcontents⟩ := hI.ring.trySend message hfull
      refine ⟨hring, ?_⟩
      simp only [mailboxStep, hr, if_true, hcontents, hI.fifo, List.append_assoc]
  | receive =>
    by_cases hempty : t.mb.size = 0
    · have hr : kMailboxTryReceiveLocked t.mb = (t.mb, -eAgain, none) := by
        simp [kMailboxTryReceiveLocked, hempty]
      simp only [mailboxStep, hr, Option.toList_none, List.append_nil]
      exact hI
    · obtain ⟨hring, -, msg, hmsg, hcontents⟩ := hI.ring.tryReceive hempty
      refine ⟨hring, ?_⟩
      simp only [mailboxStep, hmsg, Option.toList_some, List.append_assoc, List.singleton_append]
      rw [hI.fifo, hcontents]

/-- Every run keeps it. -/
theorem MailboxTrace.Inv.run {t : MailboxTrace} (hI : t.Inv) (calls : List MailboxCall) :
    (mailboxRun t calls).Inv := by
  induction calls generalizing t with
  | nil => exact hI
  | cons call calls ih => exact ih (hI.step call)

/-- A call leaves the layout of the ring as it is. -/
theorem mailboxStep_layout (t : MailboxTrace) (call : MailboxCall) :
    (mailboxStep t call).mb.capacity = t.mb.capacity ∧
      (mailboxStep t call).mb.msgSize = t.mb.msgSize ∧
      (mailboxStep t call).mb.bufEnd = t.mb.bufEnd := by
  cases call with
  | send message =>
    simp only [mailboxStep, kMailboxTrySendLocked]
    split <;> simp
  | receive =>
    simp only [mailboxStep, kMailboxTryReceiveLocked]
    split <;> simp

theorem mailboxRun_layout (t : MailboxTrace) (calls : List MailboxCall) :
    (mailboxRun t calls).mb.capacity = t.mb.capacity ∧
      (mailboxRun t calls).mb.msgSize = t.mb.msgSize ∧
      (mailboxRun t calls).mb.bufEnd = t.mb.bufEnd := by
  induction calls generalizing t with
  | nil => exact ⟨rfl, rfl, rfl⟩
  | cons call calls ih =>
    obtain ⟨h1, h2, h3⟩ := mailboxStep_layout t call
    obtain ⟨h1', h2', h3'⟩ := ih (mailboxStep t call)
    exact ⟨h1'.trans h1, h2'.trans h2, h3'.trans h3⟩

/-! ## The mailbox as a bounded FIFO -/

/-- What a mailbox is for, in a state a run reaches. The messages sent are the messages received
followed by the contents, which number `size` and at most `capacity`. A send fails exactly when
the mailbox is full and a receive exactly when it is empty, and a receive returns the oldest
message. Both pointers are at slot boundaries, inside `[buf_start, buf_end)` when there is a slot,
and the write pointer is `size` slots after the read pointer, around the ring. -/
structure MailboxSpec (t : MailboxTrace) : Prop where
  fifo : t.sent = t.received ++ t.mb.contents
  size_eq : t.mb.size = t.mb.contents.length
  size_le : t.mb.size ≤ t.mb.capacity
  send_again : ∀ message,
    (kMailboxTrySendLocked t.mb message).2 = -eAgain ↔ t.mb.size = t.mb.capacity
  receive_again : (kMailboxTryReceiveLocked t.mb).2.1 = -eAgain ↔ t.mb.size = 0
  receive_front : ∀ msg, (kMailboxTryReceiveLocked t.mb).2.2 = some msg →
    t.mb.contents.head? = some msg
  aligned : t.mb.msgSize ∣ t.mb.readPtr ∧ t.mb.msgSize ∣ t.mb.writePtr
  in_range : 0 < t.mb.capacity → t.mb.readPtr < t.mb.bufEnd ∧ t.mb.writePtr < t.mb.bufEnd
  write_eq : t.mb.writePtr =
    (t.mb.readPtr / t.mb.msgSize + t.mb.size) % t.mb.capacity * t.mb.msgSize

/-- The run's invariant gives the spec. -/
theorem MailboxTrace.Inv.spec {t : MailboxTrace} (hI : t.Inv) : MailboxSpec t := by
  have hR := hI.ring
  have hagain : (-eAgain : Int) ≠ 0 := by decide
  refine ⟨hI.fifo, by simp [KMailBox.contents], hR.size_le, fun message => ?_, ?_, fun msg h => ?_,
    ⟨⟨t.mb.head, by rw [hR.read_eq, Nat.mul_comm]⟩,
      ⟨(t.mb.head + t.mb.size) % t.mb.capacity, by rw [hR.write_eq, Nat.mul_comm]⟩⟩,
    fun hcap => ?_, hR.write_eq⟩
  · by_cases hfull : t.mb.size = t.mb.capacity
    · simp [kMailboxTrySendLocked, hfull]
    · rw [(hR.trySend message hfull).2.1]
      exact ⟨fun h => absurd h.symm hagain, fun h => absurd h hfull⟩
  · by_cases hempty : t.mb.size = 0
    · simp [kMailboxTryReceiveLocked, hempty]
    · rw [(hR.tryReceive hempty).2.1]
      exact ⟨fun h => absurd h.symm hagain, fun h => absurd h hempty⟩
  · -- a receive that returns a message found the mailbox non-empty
    have hempty : t.mb.size ≠ 0 := by
      rintro h0
      simp [kMailboxTryReceiveLocked, h0] at h
    obtain ⟨-, -, msg', hmsg', hcontents⟩ := hR.tryReceive hempty
    rw [h] at hmsg'
    cases hmsg'
    rw [hcontents]
    rfl
  · have hh := hR.head_lt hcap
    have hw := Nat.mod_lt (t.mb.head + t.mb.size) hcap
    have hm := hR.msgSize_pos
    rw [hR.bufEnd_eq, hR.read_eq, hR.write_eq]
    exact ⟨Nat.mul_lt_mul_of_pos_right hh hm, Nat.mul_lt_mul_of_pos_right hw hm⟩

/-- Along every run of sends and receives, a mailbox that `k_mailbox_create` made has
`capacity = buf_size / msg_size` and meets `MailboxSpec`. -/
theorem mailbox_bounded_fifo {msgSize bufSize : Nat} {buf : Nat → UInt8} {mb : KMailBox}
    (hcreate : kMailboxCreate msgSize buf bufSize = some mb) (calls : List MailboxCall) :
    (mailboxRun ⟨mb, [], []⟩ calls).mb.capacity = bufSize / msgSize ∧
      MailboxSpec (mailboxRun ⟨mb, [], []⟩ calls) := by
  obtain ⟨hI, hnil, hcap⟩ := kMailboxCreate_inv hcreate
  have hT : MailboxTrace.Inv ⟨mb, [], []⟩ := ⟨hI, by rw [hnil]; rfl⟩
  exact ⟨(mailboxRun_layout _ calls).1.trans hcap, (hT.run calls).spec⟩

/-- An endpoint's mailbox: a request is sent, then received. -/
theorem mailbox_bounded_fifo_endpoint :
    ∃ mb, kMailboxCreate 4 (fun _ => 0) 80 = some mb ∧
      (mailboxRun ⟨mb, [], []⟩ [.send fun _ => 7, .receive]).mb.capacity = 80 / 4 ∧
      MailboxSpec (mailboxRun ⟨mb, [], []⟩ [.send fun _ => 7, .receive]) :=
  ⟨_, rfl, mailbox_bounded_fifo rfl [.send fun _ => 7, .receive]⟩

/-- A buffer shorter than one message leaves no slot: `capacity` is 0 and `buf_end = buf_start`,
so the read pointer, at `buf_start`, is not inside `[buf_start, buf_end)`; a send fails. -/
theorem mailbox_small_buffer_no_slot :
    ∃ mb, kMailboxCreate 4 (fun _ => 0) 3 = some mb ∧ mb.capacity = 0 ∧ mb.bufEnd = 0 ∧
      ¬mb.readPtr < mb.bufEnd ∧ (kMailboxTrySendLocked mb fun _ => 7).2 = -eAgain :=
  ⟨_, rfl, rfl, rfl, by decide, rfl⟩

end Argentum.Core
