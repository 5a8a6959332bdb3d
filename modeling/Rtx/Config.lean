/-
  File:      Rtx/Config.lean
  Subject:   The macros of common.h, common_ext.h and rtx_errno.h the model uses.
-/
import Mathlib.Algebra.GroupWithZero.Nat

namespace Rtx

/-! ## Return values and error numbers -/

def rtxErr : Int := -1
def rtxOk : Int := 0

/-- `errno`; `zero` is its initial value. -/
inductive Errno where
  | zero | EPERM | ENOENT | EAGAIN | ENOMEM | EFAULT | EEXIST | EINVAL | ENOSPC | ENOMSG | EMSGSIZE
  deriving DecidableEq, Repr

/-! ## Memory pools -/

def buddy : Nat := 5
def minBlkSize : Nat := 32
def minBlkSizeLog2 : Nat := 5
def mpidIram1 : Int := 0
def mpidIram2 : Int := 1

/-! ## Tasks -/

def maxTasks : Nat := 0x10
def kernStackSize : Nat := 0x300
def procStackSize : Nat := 0x200
def tidWclck : Nat := maxTasks - 3
def tidCon : Nat := maxTasks - 2
def tidKcd : Nat := maxTasks - 1
def tidUart : Nat := 0xFE

def prioRt : Nat := 0
def high : Nat := 0x80
def medium : Nat := 0x81
def low : Nat := 0x82
def lowest : Nat := 0x83
def prioNull : Nat := 0xFF

/-! ## Mailboxes -/

/-- `MSG_HDR_SIZE` and `MIN_MSG_SIZE`: the packed header of length, sender and type. -/
def msgHdrSize : Nat := 6
def uartMbxSize : Nat := 0x80

end Rtx
