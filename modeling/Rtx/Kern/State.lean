/-
  File:      Rtx/Kern/State.lean
  Subject:   The global state of the kernel, and how its arrays are indexed.

  * A `TCB` pointer of the kernel points into `g_tcbs`, so it is an index of that array. Where the
    code takes an index from a caller or from a field, the access is made through `tcbAt`, `mbxAt`
    or `readyAt`, which fail outside the array.
  * `gp_current_task` is never NULL once `k_tsk_init` has set it: the tests for NULL are left out.
  * A task that blocks in `k_recv_msg` leaves the second half of the call on its kernel stack:
    `pend` keeps what that half needs.
  * `bytes` is the memory the rings and the user stacks are in. The allocator's links are the same
    memory in the code, and kept apart here, by the pools: they are in free blocks, the rings and
    the stacks in allocated ones. While the tasks give back only blocks they were handed out, each
    of which merges cleanly, no link is written to a byte of a ring or a stack (Kern/Blocks).
-/
import Rtx.Kern.Queue
import Rtx.Mem.Pool

namespace Rtx

/-! ## 1. Data -/

/-- A `TCB` pointer: an index of `g_tcbs`. -/
abbrev Tid := Fin 16

instance instNeZeroTid : NeZero (16 : Nat) := ⟨by decide⟩

/-- `TID_NULL`. -/
def tidNull : Tid := 0

/-- A `MAILBOX` pointer: into `g_mailboxes`, or to `UART_MAILBOX`. -/
inductive MbxId where
  | task (t : Tid)
  | uart
  deriving DecidableEq, Repr

instance instNeZeroReady : NeZero (5 : Nat) := ⟨by decide⟩

/-- A `QUEUE` pointer: into `ready_queue`, to `suspend_tsk`, or to a mailbox's `waiting_list`. -/
inductive QId where
  | ready (i : Fin 5)
  | suspend
  | waiting (m : MbxId)
  deriving DecidableEq, Repr

/-- A `MAILBOX` without its waiting list. -/
structure Mailbox where
  active : Bool
  memoryBuffer : Mb

/-- The second half of a blocked `k_recv_msg`: its mailbox, buffer and length. -/
structure Pending where
  mbx : MbxId
  buf : Buf
  len : Nat

/-- The global variables of the kernel. -/
structure Kernel extends Tasks Tid QId where
  current : Tid
  mailbox : MbxId → Mailbox
  ram1 : Pool
  ram2 : Pool
  bytes : Nat → UInt8
  timerCount : Nat
  uartMailboxCollect : Bool
  pend : Tid → Option Pending

/-- What a boot task is described by. -/
structure TaskInit where
  ptask : Nat
  uStackSize : Nat
  prio : Nat
  priv : Nat

/-- `TIMEVAL`. -/
structure Timeval where
  sec : Nat
  usec : Nat
  deriving DecidableEq, Repr

/-- `RTX_TASK_INFO`. -/
structure TaskInfo where
  tid : Nat
  prio : Nat
  priv : Nat
  state : TaskState
  kSp : Nat
  uSp : Nat
  kSpBase : Nat
  uSpBase : Option Nat
  uStackSize : Nat
  kStackSize : Nat
  ptask : Nat

/-! ## 2. Indices -/

def rtIndex : Int := 0
def highIndex : Int := 1
def mediumIndex : Int := 2
def lowIndex : Int := 3
def lowestIndex : Int := 4
def nullIndex : Int := 5

/-- `priority2order`. -/
def priority2order (priority : Nat) : Int :=
  if priority = prioRt then rtIndex
  else if priority = high then highIndex
  else if priority = medium then mediumIndex
  else if priority = low then lowIndex
  else if priority = lowest then lowestIndex
  else if priority = prioNull then nullIndex
  else -1

/-- `order2priority`. -/
def order2priority (order : Int) : Nat :=
  if order = rtIndex then prioRt
  else if order = highIndex then high
  else if order = mediumIndex then medium
  else if order = lowIndex then low
  else if order = lowestIndex then lowest
  else if order = nullIndex then prioNull
  else 0x79

/-- `&ready_queue[order]`. -/
def readyAt (order : Int) : Except Fault QId :=
  if h : 0 ≤ order ∧ order < 5 then .ok (.ready ⟨order.toNat, by omega⟩) else .error .readyIndex

/-- `&g_tcbs[id]`. -/
def tcbAt (id : Nat) : Except Fault Tid :=
  if h : id < 16 then .ok ⟨id, h⟩ else .error .tcbIndex

/-- `&g_mailboxes[id]`. -/
def mbxAt (id : Nat) : Except Fault MbxId :=
  if h : id < 16 then .ok (.task ⟨id, h⟩) else .error .mbxIndex

namespace Kernel

variable (k : Kernel)

/-! ## 3. The operations on queues and pools, on the kernel's state -/

/-- `gp_current_task`, dereferenced. -/
def cur : Tcb Tid := k.tcb k.current

def setErrno (e : Errno) : Kernel := { k with errno := e }

def modifyTcb (t : Tid) (f : TcbData → TcbData) : Kernel :=
  { k with toTasks := k.toTasks.modify t f }

def setTaskState (t : Tid) (v : TaskState) : Kernel :=
  { k with toTasks := k.toTasks.setState t v }

def setCurrent (t : Tid) : Kernel := { k with current := t }

/-- `push_head(t, q)`. -/
def pushHead (t : Tid) (q : QId) : Kernel := { k with toTasks := k.toTasks.pushHead t q }

/-- `push_tail(t, q)`. -/
def pushTail (t : Tid) (q : QId) : Except Fault Kernel := do
  let s ← k.toTasks.pushTail t q
  return { k with toTasks := s }

/-- `pop_head(q)`, where the head of `q` is not NULL. -/
def popHead (q : QId) : Kernel := { k with toTasks := (k.toTasks.popHead q).1 }

/-- `pop_task(t, q)`; nobody reads its result. -/
def popTask (t : Tid) (q : QId) : Except Fault Kernel := do
  let (s, _) ← k.toTasks.popTask t q
  return { k with toTasks := s }

def mem : Mem := ⟨k.ram1, k.ram2, k.errno⟩

/-- `k_mpool_alloc(mpid, size)`. -/
def mpoolAlloc (mpid : Int) (size : Nat) : Except Fault (Kernel × Option Nat) :=
  match kMpoolAlloc k.mem mpid size with
  | none => .error .pool
  | some (m, ptr) => .ok ({ k with ram1 := m.ram1, ram2 := m.ram2, errno := m.errno }, ptr)

/-- `k_mpool_dealloc(mpid, ptr)`. -/
def mpoolDealloc (mpid : Int) (ptr : Option Nat) : Except Fault (Kernel × Int) :=
  match kMpoolDealloc k.mem mpid ptr with
  | none => .error .pool
  | some (m, r) => .ok ({ k with ram1 := m.ram1, ram2 := m.ram2, errno := m.errno }, r)

/-- The ring of a mailbox. -/
def ring (m : MbxId) : Mb := (k.mailbox m).memoryBuffer

def setRing (m : MbxId) (mb : Mb) : Kernel :=
  { k with mailbox := Function.update k.mailbox m { k.mailbox m with memoryBuffer := mb } }

/-- `push_buffer(ring, buf)`; nobody reads its result. -/
def pushBuffer (m : MbxId) (buf : Buf) : Except Fault Kernel := do
  let (bytes, mb, _) ← (k.ring m).pushBuffer k.bytes buf
  return { k.setRing m mb with bytes }

/-- `pop_buffer(ring, buf, len)`. -/
def popBuffer (m : MbxId) (buf : Buf) (len : Nat) : Except Fault (Kernel × Buf × Int) := do
  let (mb, buf, r) ← (k.ring m).popBuffer k.bytes buf len
  return (k.setRing m mb, buf, r)

end Kernel

end Rtx
