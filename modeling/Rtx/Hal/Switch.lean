/-
  File:      Rtx/Hal/Switch.lean
  Subject:   k_tsk_switch and K_RESTORE of k_task.c, and the frame k_tsk_create_new makes for them.

  `Context` is what a task has of the processor: CONTROL, PSP, R4..R12, the program counter and all
  that is on its kernel stack. `Suspended im mem t x`: the context `x` of the task `t` is on its
  kernel stack, at the address its TCB has for it.

  * `exec_saveContext`, `exec_kRestore`: the two halves of `k_tsk_switch`, run instruction by
    instruction.
  * `switchTo_spec`: the new task gets its context, that of the old one is kept, and those of all
    others stay.
  * `fabricate_suspended`: a new task is suspended as if it had called `k_tsk_switch` in front of
    SVC_RTE.
-/
import Rtx.Kern.Task
import Rtx.Lib.Core

namespace Rtx

open Lib Core

/-! ## 1. Data -/

/-- `sizeof(TCB)`. -/
def sizeofTcb : Nat := 52

/-- `TCB_MSP_OFFSET`. -/
def tcbMspOffset : Nat := 8

/-- Where the linker has put what the switch uses; no two of the objects overlap. -/
structure Image where
  gpCurrentTask : Nat
  gTcbs : Nat
  gKStacks : Nat
  svcRte : Nat
  aligned : gKStacks % 8 = 0
  tcbs_stacks : gTcbs + maxTasks * sizeofTcb ≤ gKStacks ∨
    gKStacks + maxTasks * kernStackSize ≤ gTcbs
  current_stacks : gpCurrentTask + 4 ≤ gKStacks ∨
    gKStacks + maxTasks * kernStackSize ≤ gpCurrentTask
  current_tcbs : gpCurrentTask + 4 ≤ gTcbs ∨ gTcbs + maxTasks * sizeofTcb ≤ gpCurrentTask

namespace Image

variable (im : Image)

/-- `&g_tcbs[t]`. -/
def tcb (t : Tid) : Nat := im.gTcbs + t.val * sizeofTcb

/-- `&g_tcbs[t].msp`. -/
def msp (t : Tid) : Nat := im.tcb t + tcbMspOffset

/-- The two ends of the kernel stack of `t`. -/
def base (t : Tid) : Nat := im.gKStacks + t.val * kernStackSize
def top (t : Tid) : Nat := im.gKStacks + (t.val + 1) * kernStackSize

/-- `k_alloc_k_stack`. -/
def kAllocKStack (tid : Nat) : Option Nat :=
  if tid ≥ maxTasks then none
  else
    let sp := im.gKStacks + (tid + 1) * kernStackSize
    if sp &&& 0x04 ≠ 0 then some (sp - 4) else some sp

end Image

/-! ## 2. The code -/

/-- R4-R12. -/
def calleeSaved : List Reg := [.r 4, .r 5, .r 6, .r 7, .r 8, .r 9, .r 10, .r 11, .r 12]

/-- `k_tsk_switch` down to the label K_RESTORE. -/
def saveContext : List Instr :=
  [.push (calleeSaved ++ [.lr]), .mrs 4 .control, .mrs 5 .psp, .push [.r 4, .r 5],
    .strSp 0 tcbMspOffset]

/-- `k_tsk_switch` from the label K_RESTORE on. -/
def kRestore (im : Image) : List Instr :=
  [.ldrWord 1 im.gpCurrentTask, .ldr 2 1, .ldrSp 2 tcbMspOffset, .pop [.r 4, .r 5],
    .msr .psp 5, .msr .control 4, .isb, .pop (calleeSaved ++ [.pc])]

/-- `k_tsk_switch`. -/
def kTskSwitch (im : Image) : List Instr := saveContext ++ kRestore im

/-- `k_tsk_start`. -/
def kTskStart (im : Image) : List Instr := kRestore im

/-- `gp_current_task = &g_tcbs[new];`, and the argument of `k_tsk_switch(&g_tcbs[old])`. -/
def Lib.Core.choose (im : Image) (old new : Tid) (c : Core) : Core :=
  { c with
    r := Function.update c.r 0 (im.tcb old)
    mem := Function.update c.mem im.gpCurrentTask (im.tcb new) }

/-- The call of `k_tsk_switch`, with the return address in LR. -/
def Lib.Core.switchTo (im : Image) (old new : Tid) (c : Core) : Core :=
  exec (kTskSwitch im) (c.choose im old new)

/-- `gp_current_task = &g_tcbs[new]; k_tsk_start();` -/
def Lib.Core.start (im : Image) (new : Tid) (c : Core) : Core :=
  exec (kTskStart im) { c with mem := Function.update c.mem im.gpCurrentTask (im.tcb new) }

/-- CONTROL for a new task: it is privileged, or not. -/
def controlFor (control priv : Nat) : Nat :=
  if priv = 1 then control &&& 0xFFFFFFFE else control ||| 1

/-- What `k_tsk_create_new` does on the kernel stack of the task `t`, whose user stack pointer is
    `usp`: kLR, kR4-kR12, PSP and CONTROL are pushed, and the stack pointer is kept in the TCB. -/
def Lib.Core.fabricate (im : Image) (t : Tid) (usp priv : Nat) (c : Core) : Core :=
  match im.kAllocKStack t.val with
  | none => c
  | some ksp =>
      let mem := pushes c.mem ksp
        ([im.svcRte] ++ List.replicate 9 0 ++ [usp, controlFor c.control priv])
      { c with mem := Function.update mem (im.msp t) (ksp - 4 * 12) }

/-- The word at `a`, little-endian. -/
def getWord (bytes : Nat → UInt8) (a : Nat) : Nat :=
  (bytes a).toNat + (bytes (a + 1)).toNat * 2 ^ 8 + (bytes (a + 2)).toNat * 2 ^ 16 +
    (bytes (a + 3)).toNat * 2 ^ 24

/-- `SVC_RTE`: LR is set to 0xFFFFFFFD and branched to, which ends an exception for thread mode and
    the PSP. The processor takes R0-R3, R12, LR, PC and xPSR off the user stack, and a word more if
    the xPSR says that the stack was not aligned. The user stacks are in the memory `bytes`. -/
def Lib.Core.svcRte (bytes : Nat → UInt8) (c : Core) : Core :=
  let word := fun i => getWord bytes (c.psp + 4 * i)
  { c with
    r := fun n => if n.val < 4 then word n.val else if n = 12 then word 4 else c.r n
    lr := word 5
    pc := word 6
    psp := c.psp + 32 + if (word 7).testBit 9 then 4 else 0 }

/-! ## 3. Contexts -/

/-- What a task has of the processor. -/
structure Context where
  control : Nat
  psp : Nat
  saved : List Nat
  pc : Nat
  stack : List Nat
  deriving DecidableEq, Repr

/-- The context on a kernel stack, from its lowest word on. -/
def Context.frame (x : Context) : List Nat := x.control :: x.psp :: (x.saved ++ x.pc :: x.stack)

/-- The context of the running task, whose kernel stack begins at `top`. -/
def Lib.Core.context (c : Core) (top : Nat) : Context where
  control := c.control
  psp := c.psp
  saved := calleeSaved.map c.get
  pc := c.pc
  stack := load c.mem c.sp ((top - c.sp) / 4)

/-- The context of a task that calls `k_tsk_switch`: it goes on behind the call. -/
def Lib.Core.leaving (c : Core) (top : Nat) : Context := { c.context top with pc := c.lr }

/-- The stack pointer is in the kernel stack of the task `t`. -/
structure InStack (im : Image) (t : Tid) (sp : Nat) : Prop where
  base : im.base t ≤ sp
  top : sp ≤ im.top t
  aligned : (im.top t - sp) % 4 = 0

/-- The context `x` of the task `t` is on its kernel stack. -/
structure Suspended (im : Image) (mem : Nat → Nat) (t : Tid) (x : Context) : Prop where
  saved : x.saved.length = 9
  base : im.base t ≤ mem (im.msp t)
  size : mem (im.msp t) + 4 * (12 + x.stack.length) = im.top t
  frame : load mem (mem (im.msp t)) (12 + x.stack.length) = x.frame

/-- The processor runs the task `t`. -/
structure Runs (im : Image) (c : Core) (t : Tid) : Prop where
  current : c.mem im.gpCurrentTask = im.tcb t
  stack : InStack im t c.sp

/-! ## 4. The objects of the image do not overlap -/

section Image

variable {im : Image} {mem mem' : Nat → Nat} {t u : Tid} {x : Context} {sp a : Nat}

theorem Image.top_eq (im : Image) (t : Tid) : im.top t = im.base t + kernStackSize := by
  unfold Image.top Image.base
  rw [Nat.succ_mul, Nat.add_assoc]

/-- Two kernel stacks have no word in common. -/
theorem Image.stacks_apart (im : Image) (h : t ≠ u) : im.top t ≤ im.base u ∨ im.top u ≤ im.base t := by
  have hv : t.val ≠ u.val := fun e => h (Fin.ext e)
  unfold Image.top Image.base kernStackSize
  omega

/-- No kernel stack has a TCB in it, or `gp_current_task`. -/
theorem Image.msp_outside (im : Image) (t u : Tid) : im.msp t < im.base u ∨ im.top u ≤ im.msp t := by
  have h := im.tcbs_stacks
  have ht := t.isLt
  have hu := u.isLt
  unfold Image.msp Image.tcb Image.base Image.top
  unfold maxTasks sizeofTcb kernStackSize at *
  unfold tcbMspOffset
  omega

theorem Image.current_outside (im : Image) (u : Tid) :
    im.gpCurrentTask < im.base u ∨ im.top u ≤ im.gpCurrentTask := by
  have h := im.current_stacks
  have hu := u.isLt
  unfold Image.base Image.top
  unfold maxTasks kernStackSize at *
  omega

theorem Image.msp_ne_current (im : Image) (t : Tid) : im.msp t ≠ im.gpCurrentTask := by
  have h := im.current_tcbs
  have ht := t.isLt
  unfold Image.msp Image.tcb
  unfold maxTasks sizeofTcb at *
  unfold tcbMspOffset
  omega

theorem Image.msp_inj (im : Image) (h : t ≠ u) : im.msp t ≠ im.msp u := by
  have hv : t.val ≠ u.val := fun e => h (Fin.ext e)
  unfold Image.msp Image.tcb sizeofTcb
  omega

/-- `k_alloc_k_stack` gives the upper end: it is aligned. -/
theorem Image.kAllocKStack_eq (im : Image) (t : Tid) : im.kAllocKStack t.val = some (im.top t) := by
  have ht : ¬ t.val ≥ maxTasks := not_le.mpr t.isLt
  have h8 : im.top t % 8 = 0 := by
    have h := im.aligned
    unfold Image.top kernStackSize
    omega
  have h4 : im.top t &&& 0x04 = 0 := by
    have h3 : im.top t = 2 ^ 3 * (im.top t / 2 ^ 3) := by omega
    rw [h3]
    exact Nat.eq_of_testBit_eq fun i => by
      rw [Nat.testBit_and, Nat.testBit_two_pow_mul, Nat.zero_testBit]
      by_cases hi : 3 ≤ i
      · have : Nat.testBit 4 i = false := Nat.testBit_lt_two_pow (by
          exact Nat.lt_of_lt_of_le (by decide : 4 < 2 ^ 3) (Nat.pow_le_pow_right (by decide) hi))
        rw [this, Bool.and_false]
      · rw [decide_eq_false hi, Bool.false_and, Bool.false_and]
  unfold Image.kAllocKStack
  rw [if_neg ht]
  exact if_neg (not_not_intro h4)

/-- A context is kept as long as nobody writes to its stack or moves its stack pointer. -/
theorem Suspended.congr (h : Suspended im mem t x) (hm : mem' (im.msp t) = mem (im.msp t))
    (hs : ∀ a, im.base t ≤ a → a < im.top t → mem' a = mem a) : Suspended im mem' t x where
  saved := h.saved
  base := hm ▸ h.base
  size := hm ▸ h.size
  frame := by
    have hb := h.base
    have hsz := h.size
    rw [hm, ← h.frame]
    exact load_congr fun i hi => hs _ (by omega) (by omega)

/-- The words of a frame, taken apart. -/
theorem Suspended.words (h : Suspended im mem t x) :
    x.control = mem (mem (im.msp t)) ∧ x.psp = mem (mem (im.msp t) + 4) ∧
      x.saved = load mem (mem (im.msp t) + 8) 9 ∧ x.pc = mem (mem (im.msp t) + 8 + 36) ∧
      x.stack = load mem (mem (im.msp t) + 48) x.stack.length := by
  have hn : 12 + x.stack.length = 1 + (1 + (9 + (1 + x.stack.length))) := by omega
  have hf : mem (mem (im.msp t)) :: mem (mem (im.msp t) + 4) ::
      (load mem (mem (im.msp t) + 8) 9 ++ mem (mem (im.msp t) + 8 + 36) ::
        load mem (mem (im.msp t) + 48) x.stack.length) = x.frame := by
    rw [← h.frame, hn, load_add, load_add, load_add, load_add]
    rfl
  obtain ⟨h1, hf⟩ := List.cons.inj hf
  obtain ⟨h2, hf⟩ := List.cons.inj hf
  obtain ⟨h3, hf⟩ := List.append_inj hf (by rw [length_load, h.saved])
  obtain ⟨h4, h5⟩ := List.cons.inj hf
  exact ⟨h1.symm, h2.symm, h3.symm, h4.symm, h5.symm⟩

end Image

/-! ## 5. The two halves of the switch -/

section Switch

variable {im : Image} {c : Core} {t u old new : Tid} {x : Context} {a : Nat}

/-- The first half, run. -/
theorem exec_saveContext (c : Core) : exec saveContext c = { c with
    sp := c.sp - 40 - 8
    r := Function.update (Function.update c.r 4 c.control) 5 c.psp
    mem := Function.update (store (store c.mem (c.sp - 40) ((calleeSaved ++ [Reg.lr]).map c.get))
      (c.sp - 40 - 8) [c.control, c.psp]) (c.r 0 + tcbMspOffset) (c.sp - 40 - 8) } := by
  have h0 : (0 : Fin 13) ≠ 5 ∧ (0 : Fin 13) ≠ 4 ∧ (4 : Fin 13) ≠ 5 := by decide
  have hlen : 4 * (calleeSaved ++ [Reg.lr]).length = 40 := rfl
  simp only [saveContext, exec_cons, exec_nil, Core.step, Core.get, hlen, List.length_cons,
    List.length_nil, List.map_cons, List.map_nil, Function.update_self,
    Function.update_of_ne h0.1, Function.update_of_ne h0.2.1, Function.update_of_ne h0.2.2]

/-- The first half writes the stack pointer to the TCB, and below the stack pointer. -/
theorem saveContext_outside (hr : c.r 0 = im.tcb old) (hroom : 48 ≤ c.sp) (hm : a ≠ im.msp old)
    (ha : a < c.sp - 48 ∨ c.sp ≤ a) : (exec saveContext c).mem a = c.mem a := by
  rw [exec_saveContext, hr]
  refine (Function.update_of_ne hm _ _).trans ((store_outside fun i hi => ?_).trans
    (store_outside fun i hi => ?_))
  · rw [List.length_cons, List.length_singleton] at hi
    omega
  · rw [List.length_map, show (calleeSaved ++ [Reg.lr]).length = 10 from rfl] at hi
    omega

/-- **The first half suspends the task that runs.** -/
theorem saveContext_suspended (hr : c.r 0 = im.tcb old) (hs : InStack im old c.sp)
    (hroom : im.base old + 48 ≤ c.sp) :
    Suspended im (exec saveContext c).mem old (c.leaving (im.top old)) := by
  have hmsp : (exec saveContext c).mem (im.msp old) = c.sp - 40 - 8 := by
    rw [exec_saveContext, hr]
    exact Function.update_self _ _ _
  have hlen : (c.leaving (im.top old)).stack.length = (im.top old - c.sp) / 4 := length_load _ _ _
  have hout : ∀ b, im.base old ≤ b → b < im.top old → b ≠ im.msp old := by
    intro b h1 h2 e
    have := im.msp_outside old old
    omega
  have hb := hs.base
  have ht := hs.top
  have h4 := hs.aligned
  refine ⟨rfl, ?_, ?_, ?_⟩
  · rw [hmsp]
    omega
  · rw [hmsp, hlen]
    omega
  · rw [hmsp, hlen]
    have hn : 12 + (im.top old - c.sp) / 4 = 2 + (10 + (im.top old - c.sp) / 4) := by omega
    have h40 : c.sp - 40 - 8 + 4 * 2 = c.sp - 40 := by omega
    have h0 : c.sp - 40 + 4 * 10 = c.sp := by omega
    -- the TCB is not on the stack
    have hskip : load (exec saveContext c).mem (c.sp - 40 - 8) (12 + (im.top old - c.sp) / 4) =
        load (store (store c.mem (c.sp - 40) ((calleeSaved ++ [Reg.lr]).map c.get))
          (c.sp - 40 - 8) [c.control, c.psp]) (c.sp - 40 - 8)
          (12 + (im.top old - c.sp) / 4) := by
      refine load_congr fun i hi => ?_
      rw [exec_saveContext, hr]
      exact Function.update_of_ne (hout _ (by omega) (by omega)) _ _
    rw [hskip, hn, load_add, load_add, h40, h0]
    have h1 := load_store (store c.mem (c.sp - 40) ((calleeSaved ++ [Reg.lr]).map c.get))
      (c.sp - 40 - 8) [c.control, c.psp]
    have h2 : load (store (store c.mem (c.sp - 40) ((calleeSaved ++ [Reg.lr]).map c.get))
        (c.sp - 40 - 8) [c.control, c.psp]) (c.sp - 40) 10 =
          (calleeSaved ++ [Reg.lr]).map c.get := by
      refine (load_congr fun i hi => store_outside fun j hj => ?_).trans
        (load_store c.mem (c.sp - 40) ((calleeSaved ++ [Reg.lr]).map c.get))
      rw [List.length_cons, List.length_singleton] at hj
      omega
    have h3 : load (store (store c.mem (c.sp - 40) ((calleeSaved ++ [Reg.lr]).map c.get))
        (c.sp - 40 - 8) [c.control, c.psp]) c.sp ((im.top old - c.sp) / 4) =
          load c.mem c.sp ((im.top old - c.sp) / 4) := by
      refine load_congr fun i _ => (store_outside fun j hj => ?_).trans
        (store_outside fun j hj => ?_)
      · rw [List.length_cons, List.length_singleton] at hj
        omega
      · rw [List.length_map, show (calleeSaved ++ [Reg.lr]).length = 10 from rfl] at hj
        omega
    rw [h2, h3]
    exact congrArg (· ++ _) h1

/-- The second half, run. -/
theorem exec_kRestore (hcur : c.mem im.gpCurrentTask = im.tcb new) :
    (exec (kRestore im) c).mem = c.mem ∧
    (exec (kRestore im) c).sp = c.mem (im.msp new) + 8 + 40 ∧
    (exec (kRestore im) c).control = c.mem (c.mem (im.msp new)) ∧
    (exec (kRestore im) c).psp = c.mem (c.mem (im.msp new) + 4) ∧
    calleeSaved.map (exec (kRestore im) c).get = load c.mem (c.mem (im.msp new) + 8) 9 ∧
    (exec (kRestore im) c).pc = c.mem (c.mem (im.msp new) + 8 + 36) := by
  unfold Image.msp
  rw [← hcur]
  exact ⟨rfl, rfl, rfl, rfl, rfl, rfl⟩

/-- **The second half gives the processor to the task** `gp_current_task` points to, with its
    context. -/
theorem kRestore_context (hcur : c.mem im.gpCurrentTask = im.tcb new)
    (h : Suspended im c.mem new x) : (exec (kRestore im) c).context (im.top new) = x ∧
      Runs im (exec (kRestore im) c) new := by
  obtain ⟨h1, h2, h3, h4, h5, h6⟩ := exec_kRestore hcur
  obtain ⟨w1, w2, w3, w4, w5⟩ := h.words
  have hb := h.base
  have hsz := h.size
  have hn : (im.top new - (c.mem (im.msp new) + 8 + 40)) / 4 = x.stack.length := by omega
  refine ⟨?_, ?_, ?_, ?_, ?_⟩
  · unfold Core.context
    rw [h1, h2, h3, h4, h5, h6, hn, ← w1, ← w2, ← w3, ← w4]
    exact congrArg (Context.mk _ _ _ _) w5.symm
  · rw [h1, hcur]
  · rw [h2]
    omega
  · rw [h2]
    omega
  · rw [h2]
    omega

end Switch

/-! ## 6. The switch, and the frame of a new task -/

section SwitchTo

variable {im : Image} {c : Core} {t u old new : Tid} {x : Context} {a : Nat}

@[simp] theorem choose_r0 (im : Image) (old new : Tid) (c : Core) :
    (c.choose im old new).r 0 = im.tcb old := by
  simp only [Core.choose, Function.update_self]

@[simp] theorem choose_sp (im : Image) (old new : Tid) (c : Core) :
    (c.choose im old new).sp = c.sp := rfl

@[simp] theorem choose_current (im : Image) (old new : Tid) (c : Core) :
    (c.choose im old new).mem im.gpCurrentTask = im.tcb new := by
  simp only [Core.choose, Function.update_self]

theorem choose_mem (im : Image) (old new : Tid) (c : Core) (ha : a ≠ im.gpCurrentTask) :
    (c.choose im old new).mem a = c.mem a := Function.update_of_ne ha _ _

theorem switchTo_eq (im : Image) (old new : Tid) (c : Core) :
    c.switchTo im old new = exec (kRestore im) (exec saveContext (c.choose im old new)) :=
  exec_append _ _ _

/-- Neither the argument of the call nor `gp_current_task` is part of a context. -/
theorem leaving_choose (hs : InStack im old c.sp) (new : Tid) :
    (c.choose im old new).leaving (im.top old) = c.leaving (im.top old) := by
  have hb := hs.base
  have ht := hs.top
  have hstack : load (c.choose im old new).mem c.sp ((im.top old - c.sp) / 4) =
      load c.mem c.sp ((im.top old - c.sp) / 4) := by
    refine load_congr fun i hi => choose_mem im old new c fun e => ?_
    have := im.current_outside old
    omega
  unfold Core.leaving Core.context
  rw [choose_sp, hstack]
  rfl

section Saved

variable (hs : InStack im old c.sp) (hroom : im.base old + 48 ≤ c.sp)
include hs hroom

/-- What the first half of the switch leaves alone. -/
theorem save_outside (h1 : a ≠ im.msp old) (h2 : a < im.base old ∨ im.top old ≤ a) :
    (exec saveContext (c.choose im old new)).mem a = (c.choose im old new).mem a := by
  have ht := hs.top
  refine saveContext_outside (choose_r0 im old new c) ?_ h1 ?_
  · rw [choose_sp]
    omega
  · rw [choose_sp]
    omega

/-- **A task that calls `k_tsk_switch` is suspended.** -/
theorem save_suspended (new : Tid) : Suspended im (exec saveContext (c.choose im old new)).mem old
    (c.leaving (im.top old)) := by
  rw [← leaving_choose hs new]
  exact saveContext_suspended (choose_r0 im old new c) hs hroom

/-- The other kernel stacks stay, and the addresses kept for them. -/
theorem save_others (new : Tid) (hne : u ≠ old) (h : Suspended im c.mem u x) :
    Suspended im (exec saveContext (c.choose im old new)).mem u x := by
  refine h.congr ?_ fun a h1 h2 => ?_
  · exact (save_outside hs hroom (im.msp_inj hne) (im.msp_outside u old)).trans
      (choose_mem im old new c (im.msp_ne_current u))
  · refine (save_outside hs hroom (fun e => ?_) ?_).trans (choose_mem im old new c fun e => ?_)
    · have := im.msp_outside old u
      omega
    · have := im.stacks_apart hne
      omega
    · have := im.current_outside u
      omega

theorem save_current (new : Tid) :
    (exec saveContext (c.choose im old new)).mem im.gpCurrentTask = im.tcb new :=
  (save_outside hs hroom (im.msp_ne_current old).symm (im.current_outside old)).trans
    (choose_current im old new c)

/-- **`k_tsk_switch` between two tasks**: the new one has its context, and the old one is suspended
    behind its call. -/
theorem switchTo_spec (hne : new ≠ old) (h : Suspended im c.mem new x) :
    (c.switchTo im old new).context (im.top new) = x ∧ Runs im (c.switchTo im old new) new ∧
      Suspended im (c.switchTo im old new).mem old (c.leaving (im.top old)) ∧
      ∀ u y, u ≠ old → Suspended im c.mem u y → Suspended im (c.switchTo im old new).mem u y := by
  have hcur := save_current hs hroom new
  obtain ⟨h1, h2⟩ := kRestore_context hcur (save_others hs hroom new hne h)
  rw [switchTo_eq, (exec_kRestore hcur).1]
  exact ⟨h1, h2, save_suspended hs hroom new, fun u y hu hy => save_others hs hroom new hu hy⟩

/-- **A task that switches to itself** goes on behind its call. -/
theorem switchTo_self : (c.switchTo im old old).context (im.top old) = c.leaving (im.top old) ∧
    Runs im (c.switchTo im old old) old ∧
      ∀ u y, u ≠ old → Suspended im c.mem u y → Suspended im (c.switchTo im old old).mem u y := by
  have hcur := save_current hs hroom old
  obtain ⟨h1, h2⟩ := kRestore_context hcur (save_suspended hs hroom old)
  rw [switchTo_eq, (exec_kRestore hcur).1]
  exact ⟨h1, h2, fun u y hu hy => save_others hs hroom old hu hy⟩

end Saved

/-- What `k_tsk_create_new` writes of the kernel's memory. -/
theorem fabricate_mem (im : Image) (t : Tid) (usp priv : Nat) (c : Core) :
    (c.fabricate im t usp priv).mem = Function.update (store c.mem (im.top t - 48)
      (controlFor c.control priv :: usp :: (List.replicate 9 0 ++ [im.svcRte]))) (im.msp t)
      (im.top t - 48) := by
  have hroom : 4 * 12 ≤ im.top t := by
    have h := im.top_eq t
    have hk : kernStackSize = 768 := rfl
    omega
  unfold Core.fabricate
  rw [im.kAllocKStack_eq t]
  dsimp only
  rw [pushes_eq _ _ (by simpa using hroom)]
  rfl

/-- **A new task is suspended**, in front of SVC_RTE. -/
theorem fabricate_suspended (im : Image) (t : Tid) (usp priv : Nat) (c : Core) :
    Suspended im (c.fabricate im t usp priv).mem t
      ⟨controlFor c.control priv, usp, List.replicate 9 0, im.svcRte, []⟩ := by
  have h := im.top_eq t
  have hk : kernStackSize = 768 := rfl
  have hmsp : (c.fabricate im t usp priv).mem (im.msp t) = im.top t - 48 := by
    rw [fabricate_mem]
    exact Function.update_self _ _ _
  refine ⟨rfl, ?_, ?_, ?_⟩
  · rw [hmsp]
    omega
  · rw [hmsp, List.length_nil]
    omega
  · rw [hmsp, fabricate_mem]
    refine (load_congr fun i hi => Function.update_of_ne (fun e => ?_) _ _).trans
      (load_store c.mem (im.top t - 48)
        (controlFor c.control priv :: usp :: (List.replicate 9 0 ++ [im.svcRte])))
    have := im.msp_outside t t
    rw [List.length_nil] at hi
    omega

/-- What `k_tsk_create_new` leaves alone. -/
theorem fabricate_outside (usp priv : Nat) (hm : a ≠ im.msp t)
    (ha : a < im.base t ∨ im.top t ≤ a) : (c.fabricate im t usp priv).mem a = c.mem a := by
  have ht := im.top_eq t
  have hk : kernStackSize = 768 := rfl
  rw [fabricate_mem]
  refine (Function.update_of_ne hm _ _).trans (store_outside fun i hi => ?_)
  rw [List.length_cons, List.length_cons, List.length_append, List.length_replicate,
    List.length_singleton] at hi
  omega

/-- It writes neither to the TCB of another task nor to its kernel stack. -/
theorem fabricate_stack (hne : u ≠ t) (usp priv : Nat) :
    (c.fabricate im t usp priv).mem (im.msp u) = c.mem (im.msp u) ∧
      ∀ a, im.base u ≤ a → a < im.top u → (c.fabricate im t usp priv).mem a = c.mem a := by
  refine ⟨fabricate_outside usp priv (im.msp_inj hne) (im.msp_outside u t), fun a h1 h2 => ?_⟩
  refine fabricate_outside usp priv (fun e => ?_) ?_
  · have := im.msp_outside t u
    omega
  · have := im.stacks_apart hne
    omega

theorem fabricate_current (im : Image) (t : Tid) (usp priv : Nat) (c : Core) :
    (c.fabricate im t usp priv).mem im.gpCurrentTask = c.mem im.gpCurrentTask :=
  fabricate_outside usp priv (im.msp_ne_current t).symm (im.current_outside t)

/-- It leaves the registers. -/
theorem fabricate_registers (im : Image) (t : Tid) (usp priv : Nat) (c : Core) :
    (c.fabricate im t usp priv).toRegisters = c.toRegisters := by
  unfold Core.fabricate
  rw [im.kAllocKStack_eq t]

end SwitchTo

end Rtx
