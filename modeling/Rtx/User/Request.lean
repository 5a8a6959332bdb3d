/-
  File:      Rtx/User/Request.lean
  Subject:   What the system tasks ask of the kernel, and the messages they exchange.

  A task is a process whose requests are system calls; an answer is what the call returns and
  stores for it. A task fails where it follows a NULL pointer.

  A message is built in a block of memory. What lies behind its last byte there is never read, and
  is taken as zero.
-/
import Rtx.Lib.Process
import Rtx.Msg.RingSpec
import Rtx.Kern.Queue

namespace Rtx

open Lib

/-! ## 1. Messages -/

/-- The message types of common.h. -/
def kcdReg : UInt8 := 1
def kcdCmd : UInt8 := 2
def display : UInt8 := 3
def keyIn : UInt8 := 4

def conMbxSize : Nat := 0x80
def kcdCmdBufSize : Nat := 0x40

/-- A character constant. -/
def char (c : Char) : UInt8 := UInt8.ofNat c.toNat

/-- The characters of a C string, without the closing zero. -/
def chars (s : String) : List UInt8 := s.toList.map char

namespace Buf

/-- `type` of the header. -/
def type (b : Buf) : UInt8 := b 5

/-- `buf[p_buf->length - 1]`. -/
def last (b : Buf) : UInt8 := b (sub32 b.length 1)

/-- The bytes of the message behind its header. -/
def payload (b : Buf) : List UInt8 := b.msg.drop msgHdrSize

end Buf

/-- A U32 in memory. -/
def word (n : Nat) : List UInt8 :=
  [UInt8.ofNat n, UInt8.ofNat (n / 2 ^ 8), UInt8.ofNat (n / 2 ^ 16), UInt8.ofNat (n / 2 ^ 24)]

/-- The header of a message of `n` bytes. -/
def header (n : Nat) (senderTid type : UInt8) : List UInt8 := word n ++ [senderTid, type]

/-- A message with its header. -/
def message (senderTid type : UInt8) (data : List UInt8) : List UInt8 :=
  header (msgHdrSize + data.length) senderTid type ++ data

section Message

variable {senderTid type : UInt8} {data : List UInt8}

@[simp] theorem length_message : (message senderTid type data).length = msgHdrSize + data.length :=
  List.length_append

/-- What a message built in a block says of itself. -/
theorem length_ofMsg_header {n : Nat} :
    (Buf.ofMsg (header n senderTid type ++ data)).length = n % 2 ^ 32 := by
  have hbyte : ∀ n : Nat, (UInt8.ofNat n).toNat = n % 2 ^ 8 := fun n => UInt8.toNat_ofNat'
  simp only [Buf.length, Buf.ofMsg, header, word, List.cons_append, List.getD_cons_zero,
    List.getD_cons_succ, hbyte]
  omega

theorem length_ofMsg_message : (Buf.ofMsg (message senderTid type data)).length =
    (msgHdrSize + data.length) % 2 ^ 32 := length_ofMsg_header

theorem isMsg_message (h : msgHdrSize + data.length < 2 ^ 32) :
    IsMsg (message senderTid type data) where
  length_eq := by rw [length_ofMsg_message, length_message, Nat.mod_eq_of_lt h]
  header := length_message ▸ Nat.le_add_right _ _

@[simp] theorem type_ofMsg_message : (Buf.ofMsg (message senderTid type data)).type = type := rfl

@[simp] theorem senderTid_ofMsg_message :
    (Buf.ofMsg (message senderTid type data)).senderTid = senderTid.toNat := rfl

/-- The character of a message with one. -/
theorem last_ofMsg_message (c : UInt8) : (Buf.ofMsg (message senderTid type [c])).last = c := by
  have hlast : sub32 ((msgHdrSize + [c].length) % 2 ^ 32) 1 = 6 := by
    rw [List.length_singleton]
    decide
  unfold Buf.last
  rw [length_ofMsg_message, hlast]
  rfl

theorem payload_ofMsg_message (h : msgHdrSize + data.length < 2 ^ 32) :
    (Buf.ofMsg (message senderTid type data)).payload = data := by
  have hmsg : Buf.ofMsg (message senderTid type data) =
      Buf.put (fun _ => 0) (message senderTid type data) := by
    funext i
    unfold Buf.ofMsg Buf.put
    split
    next hi => rw [List.getD_eq_getElem _ _ hi]
    next hi => rw [List.getD_eq_default _ _ (Nat.le_of_not_lt hi)]
  unfold Buf.payload
  rw [hmsg, Buf.msg_put (isMsg_message h)]
  rfl

end Message

/-! ## 2. Requests -/

/-- What can stop a task: an access the code should never make. -/
inductive TaskFault where
  | nullPtr
  /-- A pointer that leads to no node, or a walk that never ends. -/
  | dangling
  deriving DecidableEq, Repr

/-- A system call with its arguments, or a byte written to a block of memory (where a task's bounds
    matter; elsewhere a message is written as a whole). A buffer is its content. -/
inductive Request where
  | memAlloc (size : Nat)
  | memDealloc (ptr : Option Nat)
  | sendMsg (tid : Nat) (buf : Buf)
  | tskGet (tid : Nat)
  | tskLs (count : Nat)
  | mbxLs (count : Nat)
  | mbxGet (tid : Nat)
  | rtTskSusp
  | store (addr : Nat) (byte : UInt8)

/-- What the task gets back: a block or NULL, the result of a call, for `tsk_get` also the `state`
    of the caller's buffer afterwards, for the listing calls the buffer afterwards. -/
abbrev Answer : Request → Type
  | .memAlloc _ => Option Nat
  | .memDealloc _ | .sendMsg _ _ | .mbxGet _ | .rtTskSusp => Int
  | .tskGet _ => Int × TaskState
  | .tskLs _ | .mbxLs _ => Int × Buf
  | .store _ _ => Unit

/-- The code of a task. -/
abbrev UserM (α : Type) := Proc Answer TaskFault α

namespace Sys

abbrev memAlloc (size : Nat) : UserM (Option Nat) := Proc.call (Request.memAlloc size)

abbrev memDealloc (ptr : Option Nat) : UserM Int := Proc.call (Request.memDealloc ptr)

abbrev sendMsg (tid : Nat) (buf : Buf) : UserM Int := Proc.call (Request.sendMsg tid buf)

abbrev tskGet (tid : Nat) : UserM (Int × TaskState) := Proc.call (Request.tskGet tid)

abbrev tskLs (count : Nat) : UserM (Int × Buf) := Proc.call (Request.tskLs count)

abbrev mbxLs (count : Nat) : UserM (Int × Buf) := Proc.call (Request.mbxLs count)

abbrev mbxGet (tid : Nat) : UserM Int := Proc.call (Request.mbxGet tid)

abbrev rtTskSusp : UserM Int := Proc.call Request.rtTskSusp

abbrev store (addr : Nat) (byte : UInt8) : UserM Unit := Proc.call (Request.store addr byte)

end Sys

/-- A pointer that is followed. -/
def nonNull {α : Type} : Option α → UserM α
  | none => .fail .nullPtr
  | some a => .ret a

/-- Every call succeeds, and the blocks are those of `alloc`. -/
def answering (alloc : Nat → Option Nat) : Env Answer := fun _ r =>
  match r with
  | .memAlloc size => alloc size
  | .memDealloc _ | .sendMsg _ _ | .mbxGet _ | .rtTskSusp => rtxOk
  | .tskGet _ => (rtxOk, .ready)
  | .tskLs _ | .mbxLs _ => (rtxOk, fun _ => 0)
  | .store _ _ => ()

/-- Every block is at the address `a`. -/
def granting (a : Nat) : Env Answer := answering fun _ => some a

/-- The message that a request sends, with its receiver. -/
def Request.sent : Request → Option (Nat × Buf)
  | .sendMsg tid buf => some (tid, buf)
  | _ => none

/-- The messages of a run. -/
def sends (tr : List (Exchange Answer)) : List (Nat × Buf) := tr.filterMap fun x => x.req.sent

@[simp] theorem sends_nil : sends [] = [] := rfl

@[simp] theorem sends_append (tr tr' : List (Exchange Answer)) :
    sends (tr ++ tr') = sends tr ++ sends tr' := List.filterMap_append

theorem sends_cons (x : Exchange Answer) (tr : List (Exchange Answer)) :
    sends (x :: tr) = x.req.sent.toList ++ sends tr := by
  unfold sends
  rw [List.filterMap_cons]
  cases x.req.sent with
  | none => rfl
  | some m => rfl

end Rtx
