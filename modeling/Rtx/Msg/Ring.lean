/-
  File:      Rtx/Msg/Ring.lean
  Subject:   The circular message buffer of k_msg.c: push_buffer, pop_buffer, can_fit.

  The bytes of all memory are one map `Nat → UInt8`; a ring is the region from `memoryStart` to
  `memoryEnd` of it, and `head` and `tail` are addresses in it (`memoryEnd` included). A user's
  buffer is the memory from its pointer on. Arithmetic on addresses and lengths is that of U32.

  A copy whose ring side leaves the ring is the fault `ringBounds`.
-/
import Mathlib.Logic.Function.Basic
import Rtx.Config

namespace Rtx

/-- What can stop a run of the kernel: an access the code should never make, or a loop that
    never ends. -/
inductive Fault where
  /-- A NULL `TCB` pointer is dereferenced. -/
  | nullTcb
  /-- A NULL message pointer is dereferenced. -/
  | nullMsg
  /-- `ready_queue` is indexed outside 0..4. -/
  | readyIndex
  /-- `g_tcbs` is indexed outside 0..15. -/
  | tcbIndex
  /-- `g_mailboxes` is indexed outside 0..15. -/
  | mbxIndex
  /-- A copy leaves the ring of a mailbox. -/
  | ringBounds
  /-- `k_mpool_alloc` or `k_mpool_dealloc` does not return. -/
  | pool
  /-- A loop that never ends. -/
  | hang
  deriving DecidableEq, Repr

/-- U32 addition. -/
def add32 (a b : Nat) : Nat := (a + b) % 2 ^ 32

/-- U32 subtraction. -/
def sub32 (a b : Nat) : Nat := (a + (2 ^ 32 - b)) % 2 ^ 32

theorem add32_eq {a b : Nat} (h : a + b < 2 ^ 32) : add32 a b = a + b := Nat.mod_eq_of_lt h

theorem sub32_eq {a b : Nat} (hb : b ≤ a) (ha : a < 2 ^ 32) : sub32 a b = a - b := by
  rw [sub32]
  omega

/-! ## 1. Buffers -/

/-- The memory from a user's pointer on. -/
abbrev Buf := Nat → UInt8

namespace Buf

/-- `length` of the packed `RTX_MSG_HDR`: a little-endian U32. -/
def length (b : Buf) : Nat :=
  (b 0).toNat + 2 ^ 8 * (b 1).toNat + 2 ^ 16 * (b 2).toNat + 2 ^ 24 * (b 3).toNat

/-- `sender_tid` of the header. -/
def senderTid (b : Buf) : Nat := (b 4).toNat

/-- The message at the pointer: as many bytes as its header says. -/
def msg (b : Buf) : List UInt8 := (List.range b.length).map b

end Buf

/-- `mem_cpy(dest + d, src + s, cpyLength)`. -/
def memCpy (dest : Nat → UInt8) (d : Nat) (src : Nat → UInt8) (s : Nat) : Nat → Nat → UInt8
  | 0 => dest
  | i + 1 => Function.update (memCpy dest d src s i) (d + i) (src (s + i))

/-! ## 2. The ring -/

/-- `MB`. -/
structure Mb where
  memoryStart : Nat
  memoryEnd : Nat
  head : Nat
  tail : Nat
  capacity : Nat
  currentSize : Nat
  deriving DecidableEq, Repr

namespace Mb

/-- The assignments of `k_mbx_create` for the block `memAlloc` of `size` bytes. -/
def create (memAlloc size : Nat) : Mb where
  memoryStart := memAlloc
  memoryEnd := memAlloc + size
  head := memAlloc
  tail := memAlloc
  capacity := size
  currentSize := 0

/-- `can_fit`. -/
def canFit (mb : Mb) (messageSize : Nat) : Int :=
  if mb.currentSize = mb.capacity then -1
  else if sub32 mb.capacity mb.currentSize < messageSize then 0
  else 1

/-- The `n` bytes from `a` lie in the ring. -/
def inRing (mb : Mb) (a n : Nat) : Bool :=
  n == 0 || (decide (mb.memoryStart ≤ a) && decide (a + n ≤ mb.memoryEnd))

/-- Copy `n` bytes of `buf` to the ring at `startAddr`, going round at its end: the bytes and the
    address behind the copy. -/
def copyIn (mb : Mb) (bytes : Nat → UInt8) (startAddr : Nat) (buf : Buf) (n : Nat) :
    Except Fault ((Nat → UInt8) × Nat) :=
  if add32 startAddr n ≤ mb.memoryEnd then
    if mb.inRing startAddr n then .ok (memCpy bytes startAddr buf 0 n, add32 startAddr n)
    else .error .ringBounds
  else
    let length1 := sub32 mb.memoryEnd startAddr
    let length2 := sub32 n length1
    if mb.inRing startAddr length1 && mb.inRing mb.memoryStart length2 then
      .ok (memCpy (memCpy bytes startAddr buf 0 length1) mb.memoryStart buf length1 length2,
        add32 mb.memoryStart length2)
    else .error .ringBounds

/-- Copy `n` bytes of the ring at `startAddr` to `buf + d`, going round at its end: the buffer and
    the address behind the copy. `pop_buffer` has this twice. -/
def copyOut (mb : Mb) (bytes : Nat → UInt8) (startAddr : Nat) (buf : Buf) (d n : Nat) :
    Except Fault (Buf × Nat) :=
  if add32 startAddr n ≤ mb.memoryEnd then
    if mb.inRing startAddr n then .ok (memCpy buf d bytes startAddr n, add32 startAddr n)
    else .error .ringBounds
  else
    let length1 := sub32 mb.memoryEnd startAddr
    let length2 := sub32 n length1
    if mb.inRing startAddr length1 && mb.inRing mb.memoryStart length2 then
      .ok (memCpy (memCpy buf d bytes startAddr length1) (d + length1) bytes mb.memoryStart length2,
        add32 mb.memoryStart length2)
    else .error .ringBounds

/-- `push_buffer`: the bytes, the ring and the result. -/
def pushBuffer (mb : Mb) (bytes : Nat → UInt8) (buf : Buf) :
    Except Fault ((Nat → UInt8) × Mb × Int) := do
  let messageLength := buf.length
  if mb.canFit messageLength ≠ 1 then return (bytes, mb, 0)
  let (bytes, tail) ← mb.copyIn bytes mb.tail buf messageLength
  return (bytes, { mb with tail, currentSize := add32 mb.currentSize messageLength }, 1)

/-- `pop_buffer`: the ring, the user's buffer and the result. -/
def popBuffer (mb : Mb) (bytes : Nat → UInt8) (buf : Buf) (length : Nat) :
    Except Fault (Mb × Buf × Int) := do
  if mb.currentSize = 0 then return (mb, buf, 0)
  if length < msgHdrSize then return (mb, buf, -1)
  let (buf, startAddr) ← mb.copyOut bytes mb.head buf 0 msgHdrSize
  let msgLength := sub32 buf.length msgHdrSize
  if length < buf.length then return (mb, buf, -1)
  let (buf, startAddr) ← mb.copyOut bytes startAddr buf msgHdrSize msgLength
  return ({ mb with head := startAddr, currentSize := sub32 mb.currentSize buf.length }, buf, 1)

end Mb

end Rtx
