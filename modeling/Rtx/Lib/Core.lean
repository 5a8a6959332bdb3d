/-
  File:      Rtx/Lib/Core.lean
  Subject:   A processor with two stack pointers, and code that moves registers to and from a stack.

  `Core` has thirteen general registers, the stack pointer in use, the link register, the program
  counter, the other stack pointer (PSP) and CONTROL. A stack grows down; the lowest register of a
  list goes to the lowest address. Straight code is a list of instructions; `pc` is where control
  goes when the code leaves, it does not move from one instruction to the next.

  * `load`, `store`: words one behind the other, and what a store leaves alone.
  * `pushes_eq`: words pushed one after the other are a store.
-/
import Mathlib.Logic.Function.Basic
import Mathlib.Data.Fintype.Basic

namespace Rtx.Lib

/-! ## 1. Words in memory -/

variable {mem mem' : Nat → Nat} {a x n : Nat} {ws : List Nat}

/-- Write the words of a list, one behind the other from `a` on. -/
def store (mem : Nat → Nat) (a : Nat) : List Nat → Nat → Nat
  | [] => mem
  | w :: ws => Function.update (store mem (a + 4) ws) a w

/-- Read `n` words from `a` on. -/
def load (mem : Nat → Nat) (a : Nat) : Nat → List Nat
  | 0 => []
  | n + 1 => mem a :: load mem (a + 4) n

/-- Push the words of a list on a stack that grows down from `sp`, one after the other. -/
def pushes (mem : Nat → Nat) (sp : Nat) : List Nat → Nat → Nat
  | [] => mem
  | w :: ws => pushes (Function.update mem (sp - 4) w) (sp - 4) ws

@[simp] theorem length_load (mem : Nat → Nat) (a n : Nat) : (load mem a n).length = n := by
  induction n generalizing a with
  | zero => rfl
  | succ n ih => exact congrArg Nat.succ (ih _)

theorem load_add (mem : Nat → Nat) (a m n : Nat) :
    load mem a (m + n) = load mem a m ++ load mem (a + 4 * m) n := by
  induction m generalizing a with
  | zero =>
      rw [Nat.zero_add]
      rfl
  | succ m ih =>
      have ha : a + 4 + 4 * m = a + 4 * (m + 1) := by omega
      rw [Nat.add_right_comm, load, load, ih, List.cons_append, ha]

/-- Memories that agree on the words read. -/
theorem load_congr (h : ∀ i, i < n → mem' (a + 4 * i) = mem (a + 4 * i)) :
    load mem' a n = load mem a n := by
  induction n generalizing a with
  | zero => rfl
  | succ n ih =>
      have h0 := h 0 (Nat.succ_pos n)
      rw [Nat.mul_zero, Nat.add_zero] at h0
      rw [load, load, h0]
      congr 1
      refine ih fun i hi => ?_
      have := h (i + 1) (Nat.succ_lt_succ hi)
      rwa [show a + 4 * (i + 1) = a + 4 + 4 * i by omega] at this

/-- A store changes nothing but its own words. -/
theorem store_outside (h : ∀ i, i < ws.length → x ≠ a + 4 * i) : store mem a ws x = mem x := by
  induction ws generalizing a with
  | nil => rfl
  | cons w ws ih =>
      have h0 := h 0 (Nat.succ_pos _)
      rw [store, Function.update_of_ne (by omega)]
      exact ih fun i hi => by
        have := h (i + 1) (Nat.succ_lt_succ hi)
        omega

/-- **What was stored is read back.** -/
theorem load_store (mem : Nat → Nat) (a : Nat) (ws : List Nat) :
    load (store mem a ws) a ws.length = ws := by
  induction ws generalizing a with
  | nil => rfl
  | cons w ws ih =>
      rw [List.length_cons, load, store, Function.update_self]
      congr 1
      refine (load_congr fun i _ => ?_).trans (ih (a + 4))
      exact Function.update_of_ne (by omega) _ _

/-- The last word of a store can be written first. -/
theorem store_concat (mem : Nat → Nat) (a : Nat) (ws : List Nat) (w : Nat) :
    store mem a (ws ++ [w]) = store (Function.update mem (a + 4 * ws.length) w) a ws := by
  induction ws generalizing a with
  | nil => rfl
  | cons v ws ih =>
      have ha : a + 4 + 4 * ws.length = a + 4 * (ws.length + 1) := by omega
      rw [List.cons_append, store, store, ih, List.length_cons, ha]

/-- Words pushed one after the other are a store of the reversed list, if there is room. -/
theorem pushes_eq (mem : Nat → Nat) {sp : Nat} (ws : List Nat) (h : 4 * ws.length ≤ sp) :
    pushes mem sp ws = store mem (sp - 4 * ws.length) ws.reverse := by
  induction ws generalizing mem sp with
  | nil => rfl
  | cons w ws ih =>
      rw [List.length_cons] at h
      have h1 : sp - 4 - 4 * ws.length = sp - 4 * (ws.length + 1) := by omega
      have h2 : sp - 4 * (ws.length + 1) + 4 * ws.length = sp - 4 := by omega
      rw [pushes, ih _ (by omega), List.reverse_cons, store_concat, List.length_reverse,
        List.length_cons, h1, h2]

/-! ## 2. The processor -/

/-- A register of a list that is pushed or popped. -/
inductive Reg where
  | r (n : Fin 13)
  | lr
  | pc
  deriving DecidableEq, Repr

/-- A register that only MRS and MSR reach. -/
inductive Special where
  | psp
  | control
  deriving DecidableEq, Repr

structure Registers where
  r : Fin 13 → Nat
  sp : Nat
  lr : Nat
  pc : Nat
  psp : Nat
  control : Nat

/-- The registers and the memory. -/
structure Core extends Registers where
  mem : Nat → Nat

namespace Core

variable (c : Core)

def get : Reg → Nat
  | .r n => c.r n
  | .lr => c.lr
  | .pc => c.pc

def set (v : Nat) : Reg → Core
  | .r n => { c with r := Function.update c.r n v }
  | .lr => { c with lr := v }
  | .pc => { c with pc := v }

/-- The registers of the list get the words, in order. -/
def setAll (c : Core) : List Reg → List Nat → Core
  | reg :: regs, w :: ws => setAll (c.set w reg) regs ws
  | _, _ => c

end Core

/-- The instructions of straight code. -/
inductive Instr where
  | push (regs : List Reg)
  | pop (regs : List Reg)
  /-- `MRS rd, special`. -/
  | mrs (rd : Fin 13) (s : Special)
  /-- `MSR special, rs`. -/
  | msr (s : Special) (rs : Fin 13)
  /-- `LDR rd, =word`. -/
  | ldrWord (rd : Fin 13) (word : Nat)
  /-- `LDR rd, [rs]`. -/
  | ldr (rd rs : Fin 13)
  /-- `LDR SP, [rs, #offset]`. -/
  | ldrSp (rs : Fin 13) (offset : Nat)
  /-- `STR SP, [rd, #offset]`. -/
  | strSp (rd : Fin 13) (offset : Nat)
  /-- `ISB`. -/
  | isb

namespace Core

/-- One instruction. -/
def step (c : Core) : Instr → Core
  | .push regs =>
      let sp := c.sp - 4 * regs.length
      { c with sp, mem := store c.mem sp (regs.map c.get) }
  | .pop regs =>
      setAll { c with sp := c.sp + 4 * regs.length } regs (load c.mem c.sp regs.length)
  | .mrs rd .psp => { c with r := Function.update c.r rd c.psp }
  | .mrs rd .control => { c with r := Function.update c.r rd c.control }
  | .msr .psp rs => { c with psp := c.r rs }
  | .msr .control rs => { c with control := c.r rs }
  | .ldrWord rd word => { c with r := Function.update c.r rd word }
  | .ldr rd rs => { c with r := Function.update c.r rd (c.mem (c.r rs)) }
  | .ldrSp rs offset => { c with sp := c.mem (c.r rs + offset) }
  | .strSp rd offset => { c with mem := Function.update c.mem (c.r rd + offset) c.sp }
  | .isb => c

/-- Straight code. -/
def exec (code : List Instr) (c : Core) : Core := code.foldl step c

@[simp] theorem exec_nil (c : Core) : exec [] c = c := rfl

@[simp] theorem exec_cons (i : Instr) (code : List Instr) (c : Core) :
    exec (i :: code) c = exec code (c.step i) := rfl

theorem exec_append (code code' : List Instr) (c : Core) :
    exec (code ++ code') c = exec code' (exec code c) := List.foldl_append

end Core

end Rtx.Lib
