/-
  File:      Rtx/Hal/Threads.lean
  Subject:   The tasks on one processor, switched by the kernel.

  A `Board` is the kernel's state and the processor's. Between two calls of `k_tsk_switch` the code
  of the running task, and that of the kernel on its behalf, does as it likes (`work`), except that
  it stays on its own kernel stack and leaves those of the others, `gp_current_task` and the saved
  stack pointers alone (`Keeps`); for the first run of a task it also writes to no ring and to no
  user stack but its own (`Permitted`). What the kernel stores for its caller counts as work. An
  event of the kernel switches when it has another task run; `again` is whether it also switches
  when it chooses the task that ran.

  * `Threads`: every task that exists and does not run has a context on its kernel stack.
  * `Threads.step`: what one event does with the contexts.
  * `resumes_as_left`: a task that was switched out goes on with the context it had.
  * `first_run`: a created task starts at its entry point, on an empty stack, without privilege.
-/
import Rtx.Hal.Switch
import Rtx.Kern.Ledger
import Rtx.Kern.Scheduling

namespace Rtx

open Lib Core

/-! ## 1. The machine -/

/-- The kernel and the processor it runs on. -/
structure Board where
  kernel : Kernel
  core : Core

inductive BoardEvent where
  /-- Code that leaves these registers and has made these writes: of words of the kernel's memory,
      and of bytes of the tasks' memory. -/
  | work (regs : Registers) (writes : List (Nat × Nat)) (stores : List (Nat × UInt8))
  /-- An event of the kernel. -/
  | kernel (e : Event) (again : Bool)

/-- Writes, one after the other. -/
def writeAll {β : Type} (mem : Nat → β) : List (Nat × β) → Nat → β
  | [] => mem
  | (a, w) :: ws => writeAll (Function.update mem a w) ws

def Kernel.storeAll (k : Kernel) (stores : List (Nat × UInt8)) : Kernel :=
  { k with bytes := writeAll k.bytes stores }

/-- The tasks that an event has created. -/
def Kernel.created (k k' : Kernel) : List Tid :=
  (List.finRange 16).filter fun t => (k.tcb t).state = .dormant ∧ (k'.tcb t).state ≠ .dormant

/-- `k_tsk_create_new` on the kernel stack of the task `t`: eight words are on its user stack. -/
def Kernel.fabricate (k : Kernel) (im : Image) (c : Core) (t : Tid) : Core :=
  c.fabricate im t ((k.tcb t).psp - 32) (k.tcb t).priv

/-- The same for several tasks. -/
def Kernel.fabricateAll (k : Kernel) (im : Image) (ts : List Tid) (c : Core) : Core :=
  ts.foldl (k.fabricate im) c

namespace Board

variable (im : Image)

/-- The end of an event that leaves the kernel in the state `k`. -/
def enter (b : Board) (k : Kernel) (again : Bool) : Core :=
  let core := k.fabricateAll im (b.kernel.created k) b.core
  if k.current = b.kernel.current ∧ again = false then core
  else core.switchTo im b.kernel.current k.current

def step (b : Board) : BoardEvent → Option Board
  | .work regs writes stores =>
      some ⟨b.kernel.storeAll stores, ⟨regs, writeAll b.core.mem writes⟩⟩
  | .kernel e again => (b.kernel.step e).map fun k => ⟨k, b.enter im k again⟩

/-- The order in which the boot creates the tasks. -/
def bootOrder : List Tid := [0, 14, 15, 13, 1, 2, 3, 4, 5, 6, 7, 8, 9, 10, 11, 12]

/-- The boot: the tasks are created, and `k_tsk_start` starts the first one. -/
def boot (k : Kernel) (c : Core) : Board :=
  ⟨k, (k.fabricateAll im (bootOrder.filter fun t => (k.tcb t).state ≠ .dormant) c).start im
    k.current⟩

end Board

/-- A write of four bytes that the task `t` may make. -/
structure Spares (im : Image) (t : Tid) (a : Nat) : Prop where
  current : a + 4 ≤ im.gpCurrentTask ∨ im.gpCurrentTask + 4 ≤ a
  msp : ∀ u, a + 4 ≤ im.msp u ∨ im.msp u + 4 ≤ a
  others : ∀ u, u ≠ t → a + 4 ≤ im.base u ∨ im.top u ≤ a

instance (im : Image) (t : Tid) (a : Nat) : Decidable (Spares im t a) :=
  decidable_of_iff ((a + 4 ≤ im.gpCurrentTask ∨ im.gpCurrentTask + 4 ≤ a) ∧
    (∀ u, a + 4 ≤ im.msp u ∨ im.msp u + 4 ≤ a) ∧
    ∀ u, u ≠ t → a + 4 ≤ im.base u ∨ im.top u ≤ a)
    ⟨fun ⟨h1, h2, h3⟩ => ⟨h1, h2, h3⟩, fun ⟨h1, h2, h3⟩ => ⟨h1, h2, h3⟩⟩

instance (im : Image) (t : Tid) (sp : Nat) : Decidable (InStack im t sp) :=
  decidable_of_iff (im.base t ≤ sp ∧ sp ≤ im.top t ∧ (im.top t - sp) % 4 = 0)
    ⟨fun ⟨h1, h2, h3⟩ => ⟨h1, h2, h3⟩, fun ⟨h1, h2, h3⟩ => ⟨h1, h2, h3⟩⟩

/-- A byte that the running task may store. -/
structure Kernel.SparesByte (k : Kernel) (z : Nat) : Prop where
  uart : z < (k.ring .uart).memoryStart ∨ (k.ring .uart).memoryEnd ≤ z
  rings : ∀ t, z < (k.ring (.task t)).memoryStart ∨ (k.ring (.task t)).memoryEnd ≤ z
  homes : ∀ t, t ≠ k.current → ∀ x ∈ (k.data t).home.toList, ¬ (x.1 ≤ z ∧ z < x.1 + x.2)

instance (k : Kernel) (z : Nat) : Decidable (k.SparesByte z) :=
  decidable_of_iff ((z < (k.ring .uart).memoryStart ∨ (k.ring .uart).memoryEnd ≤ z) ∧
    (∀ t, z < (k.ring (.task t)).memoryStart ∨ (k.ring (.task t)).memoryEnd ≤ z) ∧
    ∀ t, t ≠ k.current → ∀ x ∈ (k.data t).home.toList, ¬ (x.1 ≤ z ∧ z < x.1 + x.2))
    ⟨fun ⟨h1, h2, h3⟩ => ⟨h1, h2, h3⟩, fun ⟨h1, h2, h3⟩ => ⟨h1, h2, h3⟩⟩

/-- The running task keeps to its kernel stack, and there is room on that for a frame. -/
def Board.Keeps (im : Image) (b : Board) : BoardEvent → Prop
  | .work regs writes _ =>
      InStack im b.kernel.current regs.sp ∧ ∀ w ∈ writes, Spares im b.kernel.current w.1
  | .kernel e _ => b.kernel.Legal e ∧ im.base b.kernel.current + 48 ≤ b.core.sp

instance Board.Keeps.decidable (im : Image) (b : Board) (e : BoardEvent) :
    Decidable (b.Keeps im e) :=
  match e with
  | .work regs writes _ => inferInstanceAs (Decidable (InStack im b.kernel.current regs.sp ∧
      ∀ w ∈ writes, Spares im b.kernel.current w.1))
  | .kernel e _ =>
      inferInstanceAs (Decidable (b.kernel.Legal e ∧ im.base b.kernel.current + 48 ≤ b.core.sp))

/-- Besides, it stores to no ring and to no user stack but its own. -/
def Board.Permitted (im : Image) (b : Board) : BoardEvent → Prop
  | .work regs writes stores => b.Keeps im (.work regs writes stores) ∧
      ∀ s ∈ stores, b.kernel.SparesByte s.1
  | .kernel e again => b.Keeps im (.kernel e again)

theorem Board.Permitted.keeps {im : Image} {b : Board} {e : BoardEvent} (h : b.Permitted im e) :
    b.Keeps im e := by
  cases e with
  | work regs writes stores => exact h.1
  | kernel e again => exact h

instance Board.Permitted.decidable (im : Image) (b : Board) (e : BoardEvent) :
    Decidable (b.Permitted im e) :=
  match e with
  | .work regs writes stores => inferInstanceAs (Decidable (b.Keeps im (.work regs writes stores) ∧
      ∀ s ∈ stores, b.kernel.SparesByte s.1))
  | .kernel e again => inferInstanceAs (Decidable (b.Keeps im (.kernel e again)))

/-- **Every task that exists has a context**: the one that runs on the processor, the others on
    their kernel stacks. -/
structure Threads (im : Image) (b : Board) : Prop where
  ledger : ∃ A h, Ledger A b.kernel h
  runs : Runs im b.core b.kernel.current
  waits : ∀ t, (b.kernel.data t).state ≠ .dormant → t ≠ b.kernel.current →
    ∃ x, Suspended im b.core.mem t x

/-- The task `t` has the context `x`. -/
def Board.Has (im : Image) (b : Board) (t : Tid) (x : Context) : Prop :=
  if t = b.kernel.current then b.core.context (im.top t) = x else Suspended im b.core.mem t x

/-! ## 2. Writes and new tasks -/

section Memory

variable {im : Image} {mem : Nat → Nat} {k k' : Kernel} {c : Core} {t u : Tid} {a : Nat}
  {x : Context} {ts : List Tid}

theorem writeAll_outside {β : Type} {mem : Nat → β} {ws : List (Nat × β)}
    (h : ∀ w ∈ ws, w.1 ≠ a) : writeAll mem ws a = mem a := by
  induction ws generalizing mem with
  | nil => rfl
  | cons w ws ih =>
      obtain ⟨hw, h⟩ := List.forall_mem_cons.mp h
      exact (ih h).trans (Function.update_of_ne hw.symm _ _)

/-- What the running task writes leaves the others suspended. -/
theorem writeAll_suspended {ws : List (Nat × Nat)} (h : ∀ w ∈ ws, Spares im t w.1) (hu : u ≠ t)
    (hx : Suspended im mem u x) : Suspended im (writeAll mem ws) u x := by
  refine hx.congr (writeAll_outside fun w hw => ?_) fun a h1 h2 => writeAll_outside fun w hw => ?_
  · have := (h w hw).msp u
    omega
  · have := (h w hw).others u hu
    omega

theorem writeAll_current {ws : List (Nat × Nat)} (h : ∀ w ∈ ws, Spares im t w.1) :
    writeAll mem ws im.gpCurrentTask = mem im.gpCurrentTask := by
  refine writeAll_outside fun w hw => ?_
  have := (h w hw).current
  omega

theorem fabricateAll_registers (k : Kernel) (im : Image) (ts : List Tid) (c : Core) :
    (k.fabricateAll im ts c).toRegisters = c.toRegisters := by
  induction ts generalizing c with
  | nil => rfl
  | cons t ts ih => exact (ih _).trans (fabricate_registers im t _ _ c)

theorem fabricateAll_current (k : Kernel) (im : Image) (ts : List Tid) (c : Core) :
    (k.fabricateAll im ts c).mem im.gpCurrentTask = c.mem im.gpCurrentTask := by
  induction ts generalizing c with
  | nil => rfl
  | cons t ts ih => exact (ih _).trans (fabricate_current im t _ _ c)

/-- The kernel stack of a task that is not created stays, and the address kept for it. -/
theorem fabricateAll_stack (hu : u ∉ ts) :
    (k.fabricateAll im ts c).mem (im.msp u) = c.mem (im.msp u) ∧
      ∀ a, im.base u ≤ a → a < im.top u → (k.fabricateAll im ts c).mem a = c.mem a := by
  induction ts generalizing c with
  | nil => exact ⟨rfl, fun _ _ _ => rfl⟩
  | cons t ts ih =>
      obtain ⟨hne, hu⟩ := List.ne_and_not_mem_of_not_mem_cons hu
      obtain ⟨h1, h2⟩ := ih (c := k.fabricate im c t) hu
      obtain ⟨h3, h4⟩ := @fabricate_stack im c t u hne ((k.tcb t).psp - 32) (k.tcb t).priv
      exact ⟨h1.trans h3, fun a ha hb => (h2 a ha hb).trans (h4 a ha hb)⟩

/-- The first context of the task `t`. -/
def Kernel.firstContext (k : Kernel) (im : Image) (c : Core) (t : Tid) : Context :=
  ⟨controlFor c.control (k.tcb t).priv, (k.tcb t).psp - 32, List.replicate 9 0, im.svcRte, []⟩

/-- **The created tasks are suspended.** -/
theorem fabricateAll_suspended (h : ts.Nodup) (ht : t ∈ ts) :
    Suspended im (k.fabricateAll im ts c).mem t (k.firstContext im c t) := by
  induction ts generalizing c with
  | nil => cases ht
  | cons u ts ih =>
      obtain ⟨hu, hts⟩ := List.nodup_cons.mp h
      by_cases e : t = u
      · -- the rest of the list leaves it alone
        subst e
        obtain ⟨h1, h2⟩ := @fabricateAll_stack im k (k.fabricate im c t) t ts hu
        exact (fabricate_suspended im t _ _ c).congr h1 h2
      · have hx := ih (c := k.fabricate im c u) hts ((List.mem_cons.mp ht).resolve_left e)
        have hc : (k.fabricate im c u).control = c.control :=
          congrArg Registers.control (fabricate_registers im u _ _ c)
        unfold Kernel.firstContext at hx ⊢
        rwa [hc] at hx

/-- **A task that runs keeps what is on its stack** when others are created. -/
theorem fabricateAll_context (hu : u ∉ ts) (hs : InStack im u c.sp) :
    (k.fabricateAll im ts c).context (im.top u) = c.context (im.top u) ∧
      (k.fabricateAll im ts c).leaving (im.top u) = c.leaving (im.top u) := by
  have hb := hs.base
  have ht := hs.top
  have hr := fabricateAll_registers k im ts c
  have hsp : (k.fabricateAll im ts c).sp = c.sp := congrArg Registers.sp hr
  have hget : calleeSaved.map (k.fabricateAll im ts c).get = calleeSaved.map c.get := by
    refine List.map_congr_left fun reg _ => ?_
    cases reg with
    | r n => exact congrFun (congrArg Registers.r hr) n
    | lr => exact congrArg Registers.lr hr
    | pc => exact congrArg Registers.pc hr
  have hstack : load (k.fabricateAll im ts c).mem c.sp ((im.top u - c.sp) / 4) =
      load c.mem c.sp ((im.top u - c.sp) / 4) :=
    load_congr fun i hi => (fabricateAll_stack hu).2 _ (by omega) (by omega)
  have hctx : (k.fabricateAll im ts c).context (im.top u) = c.context (im.top u) := by
    unfold Core.context
    rw [hsp, hget, hstack, congrArg Registers.control hr, congrArg Registers.psp hr,
      congrArg Registers.pc hr]
  refine ⟨hctx, ?_⟩
  unfold Core.leaving
  rw [hctx, congrArg Registers.lr hr]

theorem Kernel.mem_created :
    t ∈ k.created k' ↔ (k.data t).state = .dormant ∧ (k'.data t).state ≠ .dormant := by
  unfold Kernel.created
  rw [List.mem_filter, decide_eq_true_iff]
  exact and_iff_right (List.mem_finRange t)

theorem Kernel.nodup_created (k k' : Kernel) : (k.created k').Nodup :=
  (List.nodup_finRange 16).filter _

end Memory

/-! ## 3. One event -/

section Step

variable {im : Image} {k k' : Kernel} {A : Tid → Prop} {b b' : Board} {e : BoardEvent} {t : Tid}
  {x : Context}

/-- No event of the kernel makes a task DORMANT. -/
theorem Kernel.step_alive {e : Event} (hs : k.step e = some k')
    (ht : (k.data t).state ≠ .dormant) : (k'.data t).state ≠ .dormant := by
  obtain ⟨r, hx⟩ := Kernel.step_eq_some.mp hs
  have hw := ((exec_writes k e).of_ok hx).1 t
  generalize k'.data t = x at hw ⊢
  cases hw with
  | same h | postpone _ _ h | count h => exact h.2 ht
  | noMemory hd | create _ _ hd => exact absurd hd ht
  | makeRealTime _ _ h => exact h.2 (by simp [TcbData.makeRealTime])

/-- The running task exists. -/
theorem Ledger.running {heap : Heap} (h : Ledger A k heap) :
    (k.data k.current).state ≠ .dormant := by
  by_cases hc : k.current = tidNull
  · exact hc ▸ h.null
  · exact ((h.indexed.links.data k.current).created hc).mp (h.indexed.cur hc)

theorem Threads.running (h : Threads im b) :
    (b.kernel.data b.kernel.current).state ≠ .dormant := by
  obtain ⟨A, heap, hk⟩ := h.ledger
  exact hk.running

/-- The bytes of the tasks are not the kernel's books. -/
theorem Ledger.storeAll {heap : Heap} (h : Ledger A k heap) (stores : List (Nat × UInt8)) :
    Ledger A (k.storeAll stores) heap :=
  ⟨h.toAccounts.frame (h.indexed.frame rfl rfl rfl rfl) rfl rfl fun _ => rfl, h.uart⟩

/-- What an event does with the contexts. -/
structure Passes (im : Image) (b b' : Board) : Prop where
  threads : Threads im b'
  /-- Who waits keeps the context, and has it when it runs. -/
  waits : ∀ t x, (b.kernel.data t).state ≠ .dormant → t ≠ b.kernel.current →
    Suspended im b.core.mem t x → b'.Has im t x
  /-- Who is created has a first context. -/
  creates : ∀ t, (b.kernel.data t).state = .dormant → (b'.kernel.data t).state ≠ .dormant →
    b'.Has im t (b'.kernel.firstContext im b.core t)
  /-- Who is switched out goes on behind its call. -/
  leaves : b'.kernel.current ≠ b.kernel.current →
    Suspended im b'.core.mem b.kernel.current (b.core.leaving (im.top b.kernel.current))

/-- Code of the running task. -/
theorem Threads.work {regs : Registers} {writes : List (Nat × Nat)} {stores : List (Nat × UInt8)}
    (h : Threads im b) (he : b.Keeps im (.work regs writes stores)) :
    Passes im b ⟨b.kernel.storeAll stores, ⟨regs, writeAll b.core.mem writes⟩⟩ := by
  obtain ⟨hsp, hw⟩ := he
  obtain ⟨A, heap, hk⟩ := h.ledger
  refine ⟨⟨⟨A, heap, hk.storeAll stores⟩, ⟨(writeAll_current hw).trans h.runs.current, hsp⟩,
    fun t ht hne => ?_⟩, fun t x _ hne hx => ?_, fun t ht ht' => absurd ht ht',
    fun hc => absurd rfl hc⟩
  · obtain ⟨x, hx⟩ := h.waits t ht hne
    exact ⟨x, writeAll_suspended hw hne hx⟩
  · exact (if_neg hne).mpr (writeAll_suspended hw hne hx)

/-- In front of the switch: who exists and does not run has a context, that it had before if it
    existed. -/
theorem Threads.create (h : Threads im b) (k' : Kernel) :
    (∀ t x, (b.kernel.data t).state ≠ .dormant → Suspended im b.core.mem t x →
      Suspended im (k'.fabricateAll im (b.kernel.created k') b.core).mem t x) ∧
    (∀ t, (b.kernel.data t).state = .dormant → (k'.data t).state ≠ .dormant →
      Suspended im (k'.fabricateAll im (b.kernel.created k') b.core).mem t
        (k'.firstContext im b.core t)) ∧
    ∀ t, (k'.data t).state ≠ .dormant → t ≠ b.kernel.current →
      ∃ x, Suspended im (k'.fabricateAll im (b.kernel.created k') b.core).mem t x := by
  have hold : ∀ t x, (b.kernel.data t).state ≠ .dormant → Suspended im b.core.mem t x →
      Suspended im (k'.fabricateAll im (b.kernel.created k') b.core).mem t x := by
    intro t x ht hx
    have hnew : t ∉ b.kernel.created k' := fun hm => ht (Kernel.mem_created.mp hm).1
    obtain ⟨h1, h2⟩ := @fabricateAll_stack im k' b.core t (b.kernel.created k') hnew
    exact hx.congr h1 h2
  have hfirst : ∀ t, (b.kernel.data t).state = .dormant → (k'.data t).state ≠ .dormant →
      Suspended im (k'.fabricateAll im (b.kernel.created k') b.core).mem t
        (k'.firstContext im b.core t) := fun t h1 h2 =>
    fabricateAll_suspended (Kernel.nodup_created _ _) (Kernel.mem_created.mpr ⟨h1, h2⟩)
  refine ⟨hold, hfirst, fun t ht hne => ?_⟩
  by_cases hd : (b.kernel.data t).state = .dormant
  · exact ⟨_, hfirst t hd ht⟩
  · obtain ⟨x, hx⟩ := h.waits t hd hne
    exact ⟨x, hold t x hd hx⟩

/-- An event of the kernel. -/
theorem Threads.event {e : Event} {again : Bool} (h : Threads im b)
    (hs : b.kernel.step e = some k') (he : b.Keeps im (.kernel e again)) :
    Passes im b ⟨k', b.enter im k' again⟩ := by
  obtain ⟨hl, hroom⟩ := he
  have hledger : ∃ A heap, Ledger A k' heap := by
    obtain ⟨A, heap, hk⟩ := h.ledger
    obtain ⟨r, hx⟩ := Kernel.step_eq_some.mp hs
    obtain ⟨A', heap', hk', -⟩ := (hk.exec hl).of_ok hx
    exact ⟨A', heap', hk'⟩
  have halive : (k'.data k'.current).state ≠ .dormant := by
    obtain ⟨A, heap, hk⟩ := hledger
    exact hk.running
  obtain ⟨hold, hfirst, hnew⟩ := h.create k'
  have hcur : b.kernel.current ∉ b.kernel.created k' := fun hm =>
    h.running (Kernel.mem_created.mp hm).1
  have hleave := (fabricateAll_context (k := k') hcur h.runs.stack).2
  have hrun := (fabricateAll_current k' im (b.kernel.created k') b.core).trans h.runs.current
  have hsp : (k'.fabricateAll im (b.kernel.created k') b.core).sp = b.core.sp :=
    congrArg Registers.sp (fabricateAll_registers k' im (b.kernel.created k') b.core)
  unfold Board.enter
  dsimp only
  generalize k'.fabricateAll im (b.kernel.created k') b.core = c at hold hfirst hnew hleave hrun hsp ⊢
  rw [← hsp] at hroom
  have hst : InStack im b.kernel.current c.sp := hsp ▸ h.runs.stack
  by_cases hsame : k'.current = b.kernel.current
  · -- the running task goes on
    have hpass : ∀ c' : Core, Runs im c' b.kernel.current →
        (∀ u y, u ≠ b.kernel.current → Suspended im c.mem u y → Suspended im c'.mem u y) →
        Passes im b ⟨k', c'⟩ := by
      intro c' hr hc'
      refine ⟨⟨hledger, hsame ▸ hr, fun t ht hne => ?_⟩, fun t x ht hne hx => ?_,
        fun t ht ht' => ?_, fun hc => absurd hsame hc⟩
      · obtain ⟨x, hx⟩ := hnew t ht (hsame ▸ hne)
        exact ⟨x, hc' t x (hsame ▸ hne) hx⟩
      · exact (if_neg (hsame ▸ hne)).mpr (hc' t x hne (hold t x ht hx))
      · have hne : t ≠ b.kernel.current := fun e => h.running (e ▸ ht)
        exact (if_neg (hsame ▸ hne)).mpr (hc' t _ hne (hfirst t ht ht'))
    by_cases ha : again = false
    · rw [if_pos ⟨hsame, ha⟩]
      exact hpass c ⟨hrun, hst⟩ fun _ _ _ hy => hy
    · rw [if_neg fun hc => ha hc.2, hsame]
      obtain ⟨-, hr, hothers⟩ := switchTo_self hst hroom
      exact hpass _ hr hothers
  · -- another one goes on
    rw [if_neg fun hc => hsame hc.1]
    have hctx := fun x hx => (switchTo_spec (x := x) hst hroom hsame hx).1
    obtain ⟨y, hy⟩ := hnew k'.current halive hsame
    obtain ⟨-, hr, hout, hothers⟩ := switchTo_spec hst hroom hsame hy
    generalize c.switchTo im b.kernel.current k'.current = c' at hctx hr hout hothers ⊢
    have hhas : ∀ t x, t ≠ b.kernel.current → Suspended im c.mem t x →
        Board.Has im ⟨k', c'⟩ t x := by
      intro t x hne hx
      unfold Board.Has
      split
      next htc =>
        obtain rfl : t = k'.current := htc
        exact hctx x hx
      next => exact hothers t x hne hx
    refine ⟨⟨hledger, hr, fun t ht _ => ?_⟩, fun t x ht hne hx => hhas t x hne (hold t x ht hx),
      fun t ht ht' => hhas t _ (fun e => h.running (e ▸ ht)) (hfirst t ht ht'),
      fun _ => hleave ▸ hout⟩
    by_cases hne : t = b.kernel.current
    · exact ⟨_, hne ▸ hout⟩
    · obtain ⟨x, hx⟩ := hnew t ht hne
      exact ⟨x, hothers t x hne hx⟩

/-- **One event.** -/
theorem Threads.step (h : Threads im b) (he : b.Keeps im e) (hs : b.step im e = some b') :
    Passes im b b' := by
  cases e with
  | work regs writes stores =>
      obtain rfl := Option.some.inj hs
      exact h.work he
  | kernel e again =>
      obtain ⟨k', hk, rfl⟩ := Option.map_eq_some_iff.mp hs
      exact h.event hk he

end Step

/-! ## 4. Runs -/

section Run

variable {im : Image} {k : Kernel} {c : Core} {b b₁ b₂ : Board} {e : BoardEvent}
  {es es' : List BoardEvent} {t : Tid} {x : Context}

/-- The first task starts, and the others wait for their first turn. -/
theorem Booted.threads (hb : Booted k) (im : Image) (c : Core) : Threads im (Board.boot im k c) := by
  obtain ⟨A, heap, hk⟩ := hb.ledger
  have hnodup : (Board.bootOrder.filter fun t => (k.tcb t).state ≠ .dormant).Nodup :=
    List.Nodup.filter _ (by decide)
  have hsusp : ∀ t, (k.data t).state ≠ .dormant → Suspended im
      (k.fabricateAll im (Board.bootOrder.filter fun t => (k.tcb t).state ≠ .dormant) c).mem t
        (k.firstContext im c t) := fun t ht =>
    fabricateAll_suspended hnodup (List.mem_filter.mpr
      ⟨(by decide : ∀ t, t ∈ Board.bootOrder) t, decide_eq_true ht⟩)
  unfold Board.boot Core.start kTskStart
  generalize k.fabricateAll im (Board.bootOrder.filter fun t => (k.tcb t).state ≠ .dormant) c = c₁
    at hsusp
  -- `gp_current_task` is not on a kernel stack
  have hset : ∀ t x, Suspended im c₁.mem t x →
      Suspended im (Function.update c₁.mem im.gpCurrentTask (im.tcb k.current)) t x := by
    intro t x hx
    refine hx.congr (Function.update_of_ne (im.msp_ne_current t) _ _) fun a h1 h2 =>
      Function.update_of_ne (fun e => ?_) _ _
    have := im.current_outside t
    omega
  have hcur : Function.update c₁.mem im.gpCurrentTask (im.tcb k.current) im.gpCurrentTask =
      im.tcb k.current := Function.update_self _ _ _
  obtain ⟨hmem, -⟩ := exec_kRestore (c := { c₁ with
    mem := Function.update c₁.mem im.gpCurrentTask (im.tcb k.current) }) hcur
  obtain ⟨-, hr⟩ := kRestore_context (c := { c₁ with
    mem := Function.update c₁.mem im.gpCurrentTask (im.tcb k.current) }) hcur
      (hset _ _ (hsusp k.current hk.running))
  refine ⟨⟨A, heap, hk⟩, hr, fun t ht _ => ⟨k.firstContext im c t, ?_⟩⟩
  rw [hmem]
  exact hset t _ (hsusp t ht)

/-- **Every task that exists has a context**, in every state that is reached. -/
theorem Threads.run (hb : Booted k)
    (h : Allowed (Board.step im) (Board.Keeps im) (Board.boot im k c) es)
    (hr : Lib.run (Board.step im) (Board.boot im k c) es = some b) : Threads im b :=
  run_reached (Threads im) (fun _ _ _ h he hs => (h.step he hs).threads) (hb.threads im c) h hr

theorem Board.step_alive (hs : b.step im e = some b₁) (ht : (b.kernel.data t).state ≠ .dormant) :
    (b₁.kernel.data t).state ≠ .dormant := by
  cases e with
  | work regs writes stores =>
      obtain rfl := Option.some.inj hs
      exact ht
  | kernel e again =>
      obtain ⟨k', hk, rfl⟩ := Option.map_eq_some_iff.mp hs
      exact Kernel.step_alive hk ht

/-- A task that waits keeps its context, whoever runs meanwhile. -/
theorem Threads.waits_run (h : Threads im b) (ht : (b.kernel.data t).state ≠ .dormant)
    (hne : b.kernel.current ≠ t) (hx : Suspended im b.core.mem t x)
    (ha : Allowed (Board.step im) (fun b e => b.Keeps im e ∧ b.kernel.current ≠ t) b es)
    (hr : Lib.run (Board.step im) b es = some b₁) : Threads im b₁ ∧ b₁.Has im t x := by
  have hhas : b.Has im t x := by
    unfold Board.Has
    rwa [if_neg hne.symm]
  obtain ⟨h1, -, h2⟩ := run_reached
    (fun b : Board => Threads im b ∧ (b.kernel.data t).state ≠ .dormant ∧ b.Has im t x)
    (fun b e b' ⟨h, ht, hx⟩ ⟨he, hne⟩ hs => by
      unfold Board.Has at hx
      rw [if_neg hne.symm] at hx
      have hp := h.step he hs
      exact ⟨hp.threads, Board.step_alive hs ht, hp.waits t x ht hne.symm hx⟩)
    ⟨h, ht, hhas⟩ ha hr
  exact ⟨h1, h2⟩

/-- The stack pointer of a context. -/
theorem InStack.eq_of_context {c c' : Core} (h : InStack im t c.sp) (h' : InStack im t c'.sp)
    (he : (c'.context (im.top t)).stack = (c.context (im.top t)).stack) : c'.sp = c.sp := by
  have hlen := congrArg List.length he
  unfold Core.context at hlen
  rw [length_load, length_load] at hlen
  have h1 := h.top
  have h2 := h'.top
  have h3 := h.aligned
  have h4 := h'.aligned
  omega

/-- **A task resumes as it left**: it is switched out in the state `b`, and the others run until it
    is chosen again. Then the processor has the context of the call of `k_tsk_switch`, at the same
    stack pointer, and goes on behind the call. -/
theorem resumes_as_left (hb : Booted k)
    (h : Allowed (Board.step im) (Board.Keeps im) (Board.boot im k c) es)
    (hr : Lib.run (Board.step im) (Board.boot im k c) es = some b)
    (ht : b.kernel.current = t) (he : b.Keeps im e) (hs : b.step im e = some b₁)
    (hout : b₁.kernel.current ≠ t)
    (h' : Allowed (Board.step im) (fun b e => b.Keeps im e ∧ b.kernel.current ≠ t) b₁ es')
    (hr' : Lib.run (Board.step im) b₁ es' = some b₂) (hback : b₂.kernel.current = t) :
    b₂.core.context (im.top t) = b.core.leaving (im.top t) ∧ b₂.core.sp = b.core.sp := by
  have hthreads := Threads.run hb h hr
  have hp := hthreads.step he hs
  subst ht
  obtain ⟨hthreads₂, hhas⟩ := hp.threads.waits_run (Board.step_alive hs hthreads.running) hout
    (hp.leaves hout) h' hr'
  unfold Board.Has at hhas
  rw [if_pos hback.symm] at hhas
  have hstack₂ := hthreads₂.runs.stack
  rw [hback] at hstack₂
  have hsame : (b₂.core.context (im.top b.kernel.current)).stack =
      (b.core.context (im.top b.kernel.current)).stack := (congrArg Context.stack hhas).trans rfl
  exact ⟨hhas, hthreads.runs.stack.eq_of_context hstack₂ hsame⟩

/-- The addresses of the linker's map. -/
def ramImage : Image where
  gpCurrentTask := 0x10003020
  gTcbs := 0x10006640
  gKStacks := 0x10003040
  svcRte := 0x10000169
  aligned := by decide
  tcbs_stacks := by decide
  current_stacks := by decide
  current_tcbs := by decide

/-- A processor whose registers all have the same value. -/
def coreWith (sp v : Nat) : Core := ⟨⟨fun _ => v, sp, v, v, v, v⟩, fun _ => 0⟩

/-- The console runs and puts a word on its kernel stack. -/
def consoleWorks : List BoardEvent :=
  [.work (coreWith (ramImage.top 14 - 4) 3).toRegisters [(ramImage.top 14 - 4, 7)] []]

/-- The keyboard decoder and the wall clock run, until both have yielded. -/
def othersRun : List BoardEvent :=
  [.work (coreWith (ramImage.top 15 - 8) 5).toRegisters [(ramImage.top 15 - 8, 9)]
    [],
    .kernel (.call .tskYield) false, .kernel (.call .tskYield) false]

theorem resumes_console : ∃ b b₁ b₂ : Board,
    Lib.run (Board.step ramImage) (Board.boot ramImage (bootKernel threeTasks) (coreWith 0 0))
      consoleWorks = some b ∧
    b.step ramImage (.kernel (.call .tskYield) false) = some b₁ ∧
    Lib.run (Board.step ramImage) b₁ othersRun = some b₂ ∧
    b₂.core.context (ramImage.top 14) = b.core.leaving (ramImage.top 14) ∧
      b₂.core.sp = b.core.sp := by
  have hx : (Lib.run (Board.step ramImage) (Board.boot ramImage (bootKernel threeTasks)
      (coreWith 0 0)) consoleWorks).any (fun b => b.kernel.current = 14 ∧
        b.Keeps ramImage (.kernel (.call .tskYield) false) ∧
        (b.step ramImage (.kernel (.call .tskYield) false)).any (fun b₁ =>
          b₁.kernel.current ≠ 14 ∧
          Allowed (Board.step ramImage) (fun b e => b.Keeps ramImage e ∧
            b.kernel.current ≠ 14) b₁ othersRun ∧
          (Lib.run (Board.step ramImage) b₁ othersRun).any (fun b₂ =>
            b₂.kernel.current = 14) = true) = true) = true := by decide +kernel
  obtain ⟨b, hb, hx⟩ := (Option.any_eq_true _ _).mp hx
  obtain ⟨ht, he, hx⟩ := of_decide_eq_true hx
  obtain ⟨b₁, hb₁, hx⟩ := (Option.any_eq_true _ _).mp hx
  obtain ⟨hout, ha, hx⟩ := of_decide_eq_true hx
  obtain ⟨b₂, hb₂, hx⟩ := (Option.any_eq_true _ _).mp hx
  exact ⟨b, b₁, b₂, hb, hb₁, hb₂, resumes_as_left booted_threeTasks (by decide +kernel) hb ht he
    hb₁ hout ha hb₂ (of_decide_eq_true hx)⟩

end Run

/-! ## 5. The first run of a task -/

section Words

variable {bytes bytes' : Nat → UInt8} {a sp w : Nat} {ws : List Nat}

/-- A word that was written is read back. -/
theorem getWord_putWord (bytes : Nat → UInt8) (a w : Nat) :
    getWord (putWord bytes a w) a = w % 2 ^ 32 := by
  have hbyte : ∀ i, i < 4 → (putWord bytes a w (a + i)).toNat = w / 2 ^ (8 * i) % 2 ^ 8 := by
    intro i hi
    unfold putWord
    rw [if_pos (by omega), Nat.add_sub_cancel_left]
    exact UInt8.toNat_ofNat'
  have h0 := hbyte 0 (by omega)
  have h1 := hbyte 1 (by omega)
  have h2 := hbyte 2 (by omega)
  have h3 := hbyte 3 (by omega)
  rw [Nat.add_zero] at h0
  unfold getWord
  rw [h0, h1, h2, h3]
  omega

theorem getWord_congr (h : ∀ i, i < 4 → bytes' (a + i) = bytes (a + i)) :
    getWord bytes' a = getWord bytes a := by
  have h0 := h 0 (by omega)
  rw [Nat.add_zero] at h0
  unfold getWord
  rw [h0, h 1 (by omega), h 2 (by omega), h 3 (by omega)]

/-- The words that were pushed, from the stack pointer down. -/
theorem getWord_pushWords (bytes : Nat → UInt8) {ws : List Nat} {sp : Nat}
    (hsp : 4 * ws.length ≤ sp) (i : Nat) (hi : i < ws.length) :
    getWord (pushWords bytes sp ws) (sp - 4 * (i + 1)) = ws[i] % 2 ^ 32 := by
  induction ws generalizing bytes sp i with
  | nil => cases hi
  | cons w ws ih =>
      rw [List.length_cons] at hsp hi
      cases i with
      | zero =>
          refine (getWord_congr fun j hj => ?_).trans (getWord_putWord bytes (sp - 4) w)
          have hroom : 4 * ws.length ≤ sp - 4 := by omega
          exact pushWords_outside _ hroom (Or.inr (by omega))
      | succ i =>
          have hroom : 4 * ws.length ≤ sp - 4 := by omega
          have hnext := ih (putWord bytes (sp - 4) w) hroom i (by omega)
          rwa [show sp - 4 - 4 * (i + 1) = sp - 4 * (i + 1 + 1) by omega] at hnext

end Words

/-- What SVC_RTE makes of the processor when the task with the TCB `d` has not run yet: the task
    begins at its entry point, its registers are 0, and its stack is empty. -/
structure Begins (c : Core) (d : TcbData) : Prop where
  pc : c.pc = d.ptask % 2 ^ 32
  r : ∀ n, c.r n = 0
  lr : c.lr = 0
  psp : c.psp = d.psp

/-- The frame on the user stack, taken off it. -/
theorem svcRte_begins {k : Kernel} {c : Core} {t : Tid} (hf : k.Framed t)
    (hst : (k.data t).HasStack) (hpsp : c.psp = (k.data t).psp - 32)
    (hr : calleeSaved.map c.get = List.replicate 9 0) : Begins (c.svcRte k.bytes) (k.data t) := by
  obtain ⟨bytes, hf⟩ := hf
  obtain ⟨base, -, hbase, h32⟩ := hst
  generalize k.data t = d at hf hpsp hbase h32 ⊢
  have hlen : (userFrame d.ptask).length = 8 := rfl
  have hword : ∀ i (hi : i < 8), getWord k.bytes (c.psp + 4 * (7 - i)) =
      (userFrame d.ptask)[i] % 2 ^ 32 := by
    intro i hi
    have hroom : 4 * (userFrame d.ptask).length ≤ d.psp := by omega
    have hp := getWord_pushWords bytes hroom i hi
    rw [← hp, hpsp, show d.psp - 32 + 4 * (7 - i) = d.psp - 4 * (i + 1) by omega]
    exact getWord_congr fun j hj => hf _ (by omega) (by omega)
  have hxpsr : getWord k.bytes (c.psp + 4 * 7) = initialXPSR := hword 0 (by decide)
  have hzero : ∀ i, i < 6 → getWord k.bytes (c.psp + 4 * i) = 0 := by
    intro i hi
    obtain rfl | rfl | rfl | rfl | rfl | rfl : i = 0 ∨ i = 1 ∨ i = 2 ∨ i = 3 ∨ i = 4 ∨ i = 5 := by
      omega
    · exact hword 7 (by decide)
    · exact hword 6 (by decide)
    · exact hword 5 (by decide)
    · exact hword 4 (by decide)
    · exact hword 3 (by decide)
    · exact hword 2 (by decide)
  refine ⟨hword 1 (by decide), fun n => ?_, hzero 5 (by decide), ?_⟩
  · unfold Core.svcRte
    dsimp only
    split
    next hn => exact hzero n.val (by omega)
    split
    · exact hzero 4 (by decide)
    · have hget : ∀ reg ∈ calleeSaved, c.get reg = 0 := fun reg hm =>
        List.eq_of_mem_replicate (hr ▸ List.mem_map_of_mem hm)
      have hmem : ∀ n : Fin 13, ¬ n.val < 4 → Reg.r n ∈ calleeSaved := by decide
      exact hget (.r n) (hmem n ‹_›)
  · have hbit : initialXPSR.testBit 9 = false := by decide
    have hstep : (c.svcRte k.bytes).psp = c.psp + 32 +
        if (getWord k.bytes (c.psp + 4 * 7)).testBit 9 then 4 else 0 := rfl
    rw [hstep, hxpsr, hbit, if_neg Bool.false_ne_true, hpsp]
    omega

section FirstRun

variable {im : Image} {k k' : Kernel} {c : Core} {b b₁ b₂ : Board} {e : BoardEvent}
  {es es' : List BoardEvent} {t : Tid}

/-- A task that waits for its first run: nobody touches its frame, or what it is started with. -/
structure Kernel.Unbegun (k : Kernel) (t : Tid) (d : TcbData) : Prop where
  alive : (k.data t).state ≠ .dormant
  framed : k.Framed t
  place : (k.data t).stackPlace = d.stackPlace
  ptask : (k.data t).ptask = d.ptask

/-- The frame is kept with the bytes of the stack. -/
theorem Kernel.Unbegun.congr {d : TcbData} (hu : k.Unbegun t d) (hst : (k.data t).HasStack)
    (h : (k'.data t).state ≠ .dormant ∧ (k'.data t).stackPlace = (k.data t).stackPlace ∧
      (k'.data t).ptask = (k.data t).ptask ∧ (k'.data t).priv = (k.data t).priv)
    (hb : ∀ z, k.InUserStack t z → k'.bytes z = k.bytes z) : k'.Unbegun t d := by
  obtain ⟨h1, h2, h3, -⟩ := h
  obtain ⟨bytes, hf⟩ := hu.framed
  obtain ⟨base, h4, h5, h6⟩ := hst
  have hpsp : (k'.data t).psp = (k.data t).psp := congrArg (fun y => y.2.1) h2
  refine ⟨h1, ⟨bytes, fun z hz hz' => ?_⟩, h2.trans hu.place, h3.trans hu.ptask⟩
  rw [hpsp] at hz hz' ⊢
  rw [h3]
  refine (hb z ⟨(base, (k.data t).uStackSize), ?_, ?_, ?_⟩).trans (hf z hz hz')
  · unfold TcbData.home
    rw [if_neg hu.alive, h4]
    rfl
  · dsimp only
    omega
  · dsimp only
    omega

/-- **One event**, of others. -/
theorem Threads.unbegun {d : TcbData} (h : Threads im b) (he : b.Permitted im e)
    (hs : b.step im e = some b₁) (hne : b.kernel.current ≠ t) (hu : b.kernel.Unbegun t d) :
    b₁.kernel.Unbegun t d := by
  obtain ⟨A, heap, hk⟩ := h.ledger
  have hst := hk.stack t hu.alive
  cases e with
  | work regs writes stores =>
      obtain rfl := Option.some.inj hs
      refine hu.congr hst ⟨hu.alive, rfl, rfl, rfl⟩ fun z hz => writeAll_outside fun w hw e => ?_
      obtain ⟨x, hx, h1, h2⟩ := hz
      exact (he.2 w hw).homes t hne.symm x (Option.mem_toList.mpr hx) ⟨e ▸ h1, e ▸ h2⟩
  | kernel e again =>
      obtain ⟨k', hk', rfl⟩ := Option.map_eq_some_iff.mp hs
      obtain ⟨r, hx⟩ := Kernel.step_eq_some.mp hk'
      exact hu.congr hst ((exec_task _ e).of_ok hx t hu.alive) fun z hz =>
        (hk.exec_stack e).of_ok hx t z hz

/-- A created task waits for its first run, in front of SVC_RTE. -/
theorem Threads.created {taskEntry prio stackSize : Nat} {again : Bool} (h : Threads im b)
    (he : b.Permitted im (.kernel (.call (.tskCreate taskEntry prio stackSize)) again))
    (hs : b.step im (.kernel (.call (.tskCreate taskEntry prio stackSize)) again) = some b₁)
    (h1 : (b.kernel.data t).state = .dormant) (h2 : (b₁.kernel.data t).state ≠ .dormant) :
    b₁.kernel.Unbegun t (b₁.kernel.data t) ∧ (b₁.kernel.data t).ptask = taskEntry ∧
      b₁.Has im t ⟨b.core.control ||| 1, (b₁.kernel.data t).psp - 32, List.replicate 9 0,
        im.svcRte, []⟩ := by
  have hhas := (h.step he.keeps hs).creates t h1 h2
  obtain ⟨A, heap, hk⟩ := h.ledger
  obtain ⟨k', hk', rfl⟩ := Option.map_eq_some_iff.mp hs
  obtain ⟨r, hx⟩ := Kernel.step_eq_some.mp hk'
  obtain ⟨entry, _, _, heq, hmade⟩ := (hk.exec_made he.1).of_ok hx t h1 h2
  obtain rfl : taskEntry = entry := by
    injection heq with heq
    injection heq
  have hcontrol : controlFor b.core.control (k'.tcb t).priv = b.core.control ||| 1 :=
    congrArg (controlFor b.core.control) hmade.priv
  unfold Kernel.firstContext at hhas
  dsimp only at hhas
  rw [hcontrol] at hhas
  exact ⟨⟨h2, hmade.framed, rfl, rfl⟩, hmade.ptask, hhas⟩

/-- **A new task begins where it was told to**: the others run until it is chosen for the first
    time. Then the processor is in front of SVC_RTE, without privilege and with an empty kernel
    stack. SVC_RTE takes it to the entry point; every register of it is 0, and its user stack is
    empty. -/
theorem first_run {taskEntry prio stackSize : Nat} {again : Bool} (hb : Booted k)
    (h : Allowed (Board.step im) (Board.Permitted im) (Board.boot im k c) es)
    (hr : Lib.run (Board.step im) (Board.boot im k c) es = some b)
    (he : b.Permitted im (.kernel (.call (.tskCreate taskEntry prio stackSize)) again))
    (hs : b.step im (.kernel (.call (.tskCreate taskEntry prio stackSize)) again) = some b₁)
    (h1 : (b.kernel.data t).state = .dormant) (h2 : (b₁.kernel.data t).state ≠ .dormant)
    (h' : Allowed (Board.step im) (fun b e => b.Permitted im e ∧ b.kernel.current ≠ t) b₁ es')
    (hr' : Lib.run (Board.step im) b₁ es' = some b₂) (hturn : b₂.kernel.current = t) :
    b₂.core.pc = im.svcRte ∧ b₂.core.sp = im.top t ∧ b₂.core.control = b.core.control ||| 1 ∧
      ∃ c' base, c' = b₂.core.svcRte b₂.kernel.bytes ∧ c'.pc = taskEntry % 2 ^ 32 ∧
        (∀ n, c'.r n = 0) ∧ c'.lr = 0 ∧ (b₂.kernel.data t).pspBase = some base ∧
        c'.psp = base + (b₂.kernel.data t).uStackSize := by
  have hthreads := Threads.run hb (h.mono fun _ _ => Board.Permitted.keeps) hr
  have hnew := (hthreads.step he.keeps hs).threads
  obtain ⟨hu, hentry, hhas⟩ := hthreads.created he hs h1 h2
  generalize b₁.kernel.data t = d at hu hentry hhas
  -- while it waits, its context and its frame stay
  obtain ⟨hthreads₂, hu₂, hhas₂⟩ := run_reached
    (fun b' : Board => Threads im b' ∧ b'.kernel.Unbegun t d ∧ b'.Has im t
      ⟨b.core.control ||| 1, d.psp - 32, List.replicate 9 0, im.svcRte, []⟩)
    (fun b e b' ⟨h, hu, hx⟩ ⟨he, hne⟩ hs => by
      unfold Board.Has at hx
      rw [if_neg hne.symm] at hx
      have hp := h.step he.keeps hs
      exact ⟨hp.threads, h.unbegun he hs hne hu, hp.waits t _ hu.alive hne.symm hx⟩)
    ⟨hnew, hu, hhas⟩ h' hr'
  unfold Board.Has at hhas₂
  rw [if_pos hturn.symm] at hhas₂
  have hin := hthreads₂.runs.stack
  rw [hturn] at hin
  have hempty : (im.top t - b₂.core.sp) / 4 = 0 := by
    have hlen := congrArg (fun x => x.stack.length) hhas₂
    exact (length_load _ _ _).symm.trans hlen
  obtain ⟨A, heap, hk⟩ := hthreads₂.ledger
  have hstack := hk.stack t hu₂.alive
  have hpsp : (b₂.kernel.data t).psp = d.psp := congrArg (fun y => y.2.1) hu₂.place
  have hbegins := svcRte_begins hu₂.framed hstack (hpsp ▸ congrArg Context.psp hhas₂)
    (congrArg Context.saved hhas₂)
  obtain ⟨base, hbase, htop, -⟩ := hstack
  refine ⟨congrArg Context.pc hhas₂, ?_, congrArg Context.control hhas₂, _, base, rfl, ?_,
    hbegins.r, hbegins.lr, hbase, hbegins.psp.trans htop⟩
  · have h1 := hin.top
    have h2 := hin.aligned
    omega
  · rw [hbegins.pc, hu₂.ptask, hentry]

/-- The console creates a task with its own priority. -/
def newTask : BoardEvent := .kernel (.call (.tskCreate 0x2001 high procStackSize)) false

/-- The three tasks in front of the new one run, until all have yielded. -/
def newTaskWaits : List BoardEvent := .kernel (.call .tskYield) false :: othersRun

theorem first_run_console : ∃ b b₁ b₂ : Board,
    Lib.run (Board.step ramImage) (Board.boot ramImage (bootKernel threeTasks) (coreWith 0 0))
      consoleWorks = some b ∧
    b.step ramImage newTask = some b₁ ∧ Lib.run (Board.step ramImage) b₁ newTaskWaits = some b₂ ∧
    b₂.core.pc = ramImage.svcRte ∧ b₂.core.sp = ramImage.top 4 ∧
      b₂.core.control = b.core.control ||| 1 ∧
      ∃ c' base, c' = b₂.core.svcRte b₂.kernel.bytes ∧ c'.pc = 0x2001 % 2 ^ 32 ∧
        (∀ n, c'.r n = 0) ∧ c'.lr = 0 ∧ (b₂.kernel.data 4).pspBase = some base ∧
        c'.psp = base + (b₂.kernel.data 4).uStackSize := by
  have hx : (Lib.run (Board.step ramImage) (Board.boot ramImage (bootKernel threeTasks)
      (coreWith 0 0)) consoleWorks).any (fun b => b.Permitted ramImage newTask ∧
        (b.kernel.data 4).state = .dormant ∧
        (b.step ramImage newTask).any (fun b₁ => (b₁.kernel.data 4).state ≠ .dormant ∧
          Allowed (Board.step ramImage) (fun b e => b.Permitted ramImage e ∧
            b.kernel.current ≠ 4) b₁ newTaskWaits ∧
          (Lib.run (Board.step ramImage) b₁ newTaskWaits).any (fun b₂ =>
            b₂.kernel.current = 4) = true) = true) = true := by decide +kernel
  obtain ⟨b, hb, hx⟩ := (Option.any_eq_true _ _).mp hx
  obtain ⟨he, h1, hx⟩ := of_decide_eq_true hx
  obtain ⟨b₁, hb₁, hx⟩ := (Option.any_eq_true _ _).mp hx
  obtain ⟨h2, ha, hx⟩ := of_decide_eq_true hx
  obtain ⟨b₂, hb₂, hx⟩ := (Option.any_eq_true _ _).mp hx
  exact ⟨b, b₁, b₂, hb, hb₁, hb₂, first_run booted_threeTasks (by decide +kernel) hb he hb₁ h1 h2
    ha hb₂ (of_decide_eq_true hx)⟩

end FirstRun

end Rtx
