/-
  File:      Rtx/Kern/Stack.lean
  Subject:   The user stacks of the tasks that k_tsk_create creates.

  * `log2_eq_none`: the loop of `LOG2` runs for ever on the sizes above 2^31, and on no other.
  * `Stocked k`: IRAM2 has the form of a heap. Every event keeps it, whatever the queues are.
  * `create_returns`: in every state that is reached, `k_tsk_create` creates a task with the stack
    it asks for, or fails with ENOMEM, unless the size is above 2^31 or a task with PRIO_NULL is
    created.
-/
import Rtx.Kern.Index
import Rtx.Kern.Steady

namespace Rtx

open Lib

variable {k k' k₁ : Kernel} {t : Tid} {A : Tid → Prop}

/-! ## 1. The loops -/

/-- Above 2^31 `curr_val` wraps to 0 before it reaches the size: no number of rounds is enough. -/
theorem log2Loop_wraps {size : Nat} (hs : 2 ^ 31 < size) (fuel : Nat) {p : Nat} (hp : p < 32) :
    log2Loop size fuel p (2 ^ p) = none := by
  induction fuel generalizing p with
  | zero => rfl
  | succ fuel ih =>
      have hlt : 2 ^ p < size :=
        (Nat.pow_le_pow_right Nat.two_pos (Nat.le_of_lt_succ hp)).trans_lt hs
      unfold log2Loop
      rw [if_pos hlt, ← Nat.pow_succ]
      by_cases hp' : p + 1 < 32
      · rw [Nat.mod_eq_of_lt (Nat.pow_lt_pow_right Nat.one_lt_two hp')]
        exact ih hp'
      · obtain rfl : p = 31 := by omega
        rw [Nat.mod_self]
        exact log2Loop_zero ((Nat.zero_le _).trans_lt hs) fuel 32

/-- **`LOG2` ends** on the sizes up to 2^31. -/
theorem log2_eq_none {size : Nat} : log2 size = none ↔ 2 ^ 31 < size := by
  refine ⟨fun h => ?_, fun h => log2Loop_wraps h 32 (by decide)⟩
  by_contra hs
  rw [log2_eq (Nat.le_of_not_lt hs)] at h
  cases h

theorem log2_some {size : Nat} (hs : size ≤ 2 ^ 31) :
    ∃ power, log2 size = some power ∧ size ≤ power2 power := by
  have hl := log2_eq hs
  refine ⟨_, hl, ?_⟩
  rw [power2_eq (log2Loop_lt (by decide) hl)]
  exact size_le_two_pow_blockLog2 size

/-- The size that `k_tsk_create` asks `k_tsk_create_new` for. -/
def stackSizeValue (stackSize : Nat) : Nat :=
  if stackSize < procStackSize then procStackSize else stackSize

theorem le_stackSizeValue (stackSize : Nat) : stackSize ≤ stackSizeValue stackSize := by
  unfold stackSizeValue
  split
  next h => exact h.le
  · exact le_rfl

theorem stackSizeValue_le {stackSize : Nat} :
    stackSizeValue stackSize ≤ 2 ^ 31 ↔ stackSize ≤ 2 ^ 31 := by
  unfold stackSizeValue
  split
  next h =>
    have hp : procStackSize ≤ 2 ^ 31 := by decide
    exact ⟨fun _ => h.le.trans hp, fun _ => hp⟩
  · rfl

/-! ## 2. The memory of the stacks -/

/-- **IRAM2 is a heap**, with some of its blocks in use. -/
def Stocked (k : Kernel) : Prop := ∃ h : Heap, h.pool = k.ram2 ∧ h.Inv iram2

/-- The block of `size` bytes at `base` is in use. -/
def Kernel.HasBlock (k : Kernel) (base size : Nat) : Prop :=
  ∃ h : Heap, h.pool = k.ram2 ∧ h.Inv iram2 ∧ (base, size) ∈ h.live

section Stocked

variable (h : Stocked k)
include h

theorem Stocked.frame (e : k'.ram2 = k.ram2) : Stocked k' := by
  obtain ⟨H, hp, hI⟩ := h
  exact ⟨H, hp.trans e.symm, hI⟩

theorem Stocked.steady (hs : Steady k k') : Stocked k' := h.frame hs.ram2

theorem Stocked.unchanged (hk : Unchanged k k') : Stocked k' := by
  rcases hk with rfl | ⟨e, rfl⟩
  · exact h
  · exact h.frame rfl

/-- An allocation in IRAM2 returns, with a block of its own or without one. -/
theorem Stocked.alloc (size : Nat) : ∃ m ptr, kMpoolAlloc k.mem mpidIram2 size = some (m, ptr) ∧
    k.mpoolAlloc mpidIram2 size = .ok (k.withMem m, ptr) ∧ Stocked (k.withMem m) ∧
      ∀ a, ptr = some a → (k.withMem m).HasBlock a size := by
  obtain ⟨H, hp, hI⟩ := h
  obtain ⟨m, ptr, hal, -, hblk⟩ := mpoolAlloc_heap (k := k) .iram2 hI hp size
  refine ⟨m, ptr, mpoolAlloc_mem hal, hal, ?_⟩
  obtain ⟨rfl, hram2⟩ | ⟨a, rfl, hheap⟩ := hblk
  · exact ⟨⟨H, hp.trans hram2.symm, hI⟩, fun a e => (by cases e)⟩
  · refine ⟨⟨_, rfl, hheap⟩, fun b e => ⟨_, rfl, hheap, ?_⟩⟩
    obtain rfl := Option.some.inj e
    exact List.mem_cons_self

/-- `k_tsk_create_new` has taken its block, if it returns. -/
theorem Stocked.kTskCreateNew (info : TaskInit) (t : Tid) :
    Post (k.kTskCreateNew info t) fun r => Stocked r.1 := by
  refine (kTskCreateNew_spec k info t).imp fun r hr => ?_
  obtain ⟨power, k₁, ptr, -, hal, hr⟩ := hr
  obtain ⟨m, ptr', -, hal', hs, -⟩ := h.alloc (power2 power)
  obtain ⟨rfl, rfl⟩ := Prod.mk.inj (Except.ok.inj (hal.symm.trans hal'))
  obtain ⟨-, -, e⟩ | ⟨a, -, -, e⟩ := hr
  · exact hs.frame (by rw [e]; rfl)
  · exact hs.frame (by rw [e])

/-- **One event.** -/
theorem Stocked.exec (e : Event) : Post (k.exec e) fun r => Stocked r.1 := by
  cases he : e.steady with
  | true => exact (exec_steady k he).imp fun _ hr => h.steady hr
  | false =>
      cases e with
      | resume | overwrite => cases he
      | timer tc pc =>
          refine Ends.bind (timer0IrqHandler_counts k tc pc) fun k' hk' => ?_
          have h1 : Stocked { k with timerCount := Kernel.correctRound tc pc } := h
          obtain hk' | ⟨k₁, hk₁, rfl⟩ := hk'
          · exact h1.steady hk'
          · exact (h1.steady hk₁).frame rfl
      | call c =>
          cases c with
          | tskCreate taskEntry prio stackSize =>
              refine Ends.bind (kTskCreate_steady k taskEntry prio stackSize) fun r hr => ?_
              obtain ⟨-, hu⟩ | ⟨size, x, -, hx, hr⟩ := hr
              · exact h.unchanged hu
              · exact ((h.kTskCreateNew _ _).of_ok hx).steady hr
          | mbxCreate size =>
              refine Ends.bind (kMbxCreate_steady k size) fun r hr => ?_
              obtain hu | ⟨m, ptr, hm, hr⟩ := hr
              · exact h.unchanged hu
              obtain ⟨m', ptr', hm', -, hs, -⟩ := h.alloc size
              obtain ⟨rfl, rfl⟩ := Prod.mk.inj (Option.some.inj (hm.symm.trans hm'))
              exact hs.steady hr
          | rtTskSet tv =>
              refine Ends.bind (kRtTskSet_steady k tv) fun r hr => ?_
              obtain ⟨-, rfl⟩ | ⟨-, -, hr⟩ := hr
              · exact h.frame rfl
              · exact Stocked.steady (k := k.modifyTcb _ _) (h.frame rfl) hr
          | rtTskSusp =>
              refine Ends.bind (kRtTskSusp_steady k) fun r hr => ?_
              obtain ⟨-, rfl⟩ | ⟨-, -, hr⟩ := hr
              · exact h.frame rfl
              · exact Stocked.steady (k := k.modifyTcb _ _) (h.frame rfl) hr
          | _ => cases he

end Stocked

theorem Booted.stocked (h : Booted k) : Stocked k := by
  obtain ⟨L, hL⟩ := h.initial
  obtain ⟨H, hR⟩ := hL.rings
  exact ⟨H, hR.pool, hR.inv⟩

/-- Every state that is reached. -/
theorem Stocked.run {es : List Event} (hb : Booted k) (h : Allowed Kernel.step Kernel.Legal k es)
    (hr : Lib.run Kernel.step k es = some k') : Stocked k' :=
  run_reached Stocked (fun k e k' hs _ hstep => by
    obtain ⟨r, hx⟩ := Kernel.step_eq_some.mp hstep
    exact (hs.exec e).of_ok hx) hb.stocked h hr

/-! ## 3. `k_tsk_create` -/

/-- `k_tsk_create` has no slot for a task, or no ready queue for the priority: it returns before it
    asks for memory. -/
def Kernel.RefusesTask (k : Kernel) (prio : Nat) : Prop :=
  k.dormantSlot = 13 ∧ (k.tcb k.dormantSlot).state ≠ .dormant ∨ priority2order prio = -1

instance Kernel.RefusesTask.decidable (k : Kernel) (prio : Nat) : Decidable (k.RefusesTask prio) :=
  inferInstanceAs (Decidable (_ ∨ _))

/-- `t` is a new task, with a stack of at least `stackSize` bytes. -/
structure NewTask (k k' : Kernel) (t : Tid) (taskEntry stackSize : Nat) : Prop where
  slot : (k.data t).state = .dormant
  created : (k'.data t).state ≠ .dormant
  entry : (k'.data t).ptask = taskEntry
  stack : ∃ base, (k'.data t).pspBase = some base ∧ stackSize ≤ (k'.data t).uStackSize ∧
    k'.HasBlock base (k'.data t).uStackSize

/-- `k_tsk_create` returns; when it gets as far as the loops, with a new task or with ENOMEM. -/
def Kernel.CreateReturns (k : Kernel) (taskEntry prio stackSize : Nat) : Prop :=
  ∃ k' r task, k.kTskCreate taskEntry prio stackSize = .ok (k', r, task) ∧
    (k.RefusesTask prio ∧ r = rtxErr ∨
      (∃ t, r = rtxOk ∧ task = some t ∧ NewTask k k' t taskEntry stackSize) ∨
      r = rtxErr ∧ k'.errno = .ENOMEM)

/-- A task that is not a real-time task goes to the end of any queue. -/
theorem Tasks.pushTail_returns {s : Tasks Tid QId} {q : QId} (h : (s.tcb t).realTime = false) :
    ∃ s', s.pushTail t q = .ok s' := by
  unfold Tasks.pushTail
  split
  · exact ⟨_, rfl⟩
  · rw [if_neg (Bool.eq_false_iff.mp h)]
    exact ⟨_, rfl⟩

/-- The new task is queued, or its creator is. -/
theorem Indexed.startNew_returns (h : Indexed A k) (h0 : k.current ≠ tidNull) (ht : A t)
    (hrt : (k.data t).realTime = false) {order : Int} {i : Fin 5}
    (hq : Rtx.readyAt order = .ok (.ready i)) : ∃ k', k.startNew t order = .ok k' := by
  unfold Kernel.startNew
  split
  · obtain ⟨j, hj⟩ := (h.switchTo (Or.inr ht)).readyAt (h.cur h0)
    have hj' : Rtx.readyAt (priority2order (((k.setCurrent t).setTaskState t .running).tcb
      k.current).prio) = .ok (.ready j) := hj
    dsimp only
    rw [hj']
    exact ⟨_, rfl⟩
  · obtain ⟨s, hs⟩ := Tasks.pushTail_returns (s := k.toTasks) (q := .ready i) hrt
    rw [hq]
    refine ⟨{ k with toTasks := s }, ?_⟩
    change (k.toTasks.pushTail t (.ready i) >>= fun s => .ok { k with toTasks := s }) = _
    rw [hs]
    rfl

/-- What `k_tsk_create_new` leaves of the kernel: no memory, or a TCB that is filled in. -/
structure Stacked (k k' : Kernel) (info : TaskInit) (t : Tid) (base size : Nat) : Prop where
  enough : info.uStackSize ≤ size
  data : k'.data = Function.update k.data t (info.tcb t base size)
  block : k'.HasBlock base size

/-- **`k_tsk_create_new`** returns on the sizes up to 2^31. -/
theorem Stocked.createNew_returns (h : Stocked k) (info : TaskInit) (t : Tid)
    (hs : info.uStackSize ≤ 2 ^ 31) : ∃ k' r, k.kTskCreateNew info t = .ok (k', r) ∧
      (r = rtxErr ∧ k'.errno = .ENOMEM ∨
        r = rtxOk ∧ ∃ base size, Stacked k k' info t base size) := by
  obtain ⟨power, hl, hle⟩ := log2_some hs
  obtain ⟨m, ptr, -, hal, -, hblk⟩ := h.alloc (power2 power)
  have hret : ∃ x, k.kTskCreateNew info t = .ok x := by
    unfold Kernel.kTskCreateNew
    rw [hl]
    dsimp only
    rw [hal]
    cases ptr with
    | none => exact ⟨_, rfl⟩
    | some a => exact ⟨_, rfl⟩
  obtain ⟨⟨k', r⟩, hx⟩ := hret
  refine ⟨k', r, hx, ?_⟩
  obtain ⟨power', k₁, ptr', hl', hal', hr⟩ := (kTskCreateNew_spec k info t).of_ok hx
  obtain rfl := Option.some.inj (hl.symm.trans hl')
  obtain ⟨rfl, rfl⟩ := Prod.mk.inj (Except.ok.inj (hal.symm.trans hal'))
  obtain ⟨-, hr, hk⟩ | ⟨a, rfl, hr, hk⟩ := hr
  · obtain rfl : k' = _ := hk
    exact Or.inl ⟨hr, rfl⟩
  · obtain rfl : k' = _ := hk
    obtain ⟨H, hp, hI, hm⟩ := hblk a rfl
    refine Or.inr ⟨hr, a, power2 power, hle, ?_, H, hp, hI, hm⟩
    exact (k.withMem m).data_modifyTcb t fun _ => info.tcb t a (power2 power)

/-- What `startNew` leaves of the new task. -/
theorem Stacked.newTask {taskEntry prio stackSize base size : Nat}
    (h : Stacked k k₁ ⟨taskEntry, stackSizeValue stackSize, prio, 0⟩ t base size)
    (hs : Steady k₁ k') (hslot : (k.data t).state = .dormant) :
    NewTask k k' t taskEntry stackSize := by
  have hd := (congrFun h.data t).trans (Function.update_self _ _ _)
  have hb := (hs.body t).trans (congrArg TcbData.body hd)
  have hsize : (k'.data t).uStackSize = size := congrArg TcbData.uStackSize hb
  refine ⟨hslot, hs.alive t (by rw [hd]; exact fun e => by cases e),
    congrArg TcbData.ptask hb, base, congrArg TcbData.pspBase hb, ?_, ?_⟩
  · rw [hsize]
    exact (le_stackSizeValue stackSize).trans h.enough
  · rw [hsize]
    obtain ⟨H, hp, hI, hm⟩ := h.block
    exact ⟨H, hp.trans hs.ram2.symm, hI, hm⟩

/-- The loop of `LOG2` never ends: the processor stays in the kernel. -/
theorem Kernel.kTskCreate_hangs (k : Kernel) (taskEntry : Nat) {prio stackSize : Nat}
    (hok : ¬ k.RefusesTask prio) (hs : 2 ^ 31 < stackSize) :
    k.kTskCreate taskEntry prio stackSize = .error .hang := by
  obtain ⟨hslot, hprio⟩ := not_or.mp hok
  have hl : log2 (stackSizeValue stackSize) = none :=
    log2_eq_none.mpr (hs.trans_le (le_stackSizeValue stackSize))
  unfold Kernel.kTskCreate
  dsimp only
  rw [if_neg hslot, if_neg hprio]
  unfold Kernel.kTskCreateNew
  rw [show log2 (if stackSize < procStackSize then procStackSize else stackSize) = none from hl]
  rfl

theorem Kernel.RefusesTask.returns {prio : Nat} (h : k.RefusesTask prio)
    (taskEntry stackSize : Nat) : k.CreateReturns taskEntry prio stackSize := by
  have hret : ∃ k', k.kTskCreate taskEntry prio stackSize = .ok (k', rtxErr, none) := by
    unfold Kernel.kTskCreate
    dsimp only
    split
    · exact ⟨_, rfl⟩
    next hslot =>
      rw [if_pos (h.resolve_left hslot)]
      exact ⟨_, rfl⟩
  obtain ⟨k', hx⟩ := hret
  exact ⟨k', rtxErr, none, hx, Or.inl ⟨h, rfl⟩⟩

/-- **`k_tsk_create` returns** on the sizes up to 2^31, unless it creates a task with PRIO_NULL. -/
theorem Indexed.kTskCreate_returns (hA : Indexed A k) (h : Stocked k) (h0 : k.current ≠ tidNull)
    (taskEntry : Nat) {prio stackSize : Nat} (hs : stackSize ≤ 2 ^ 31)
    (hnull : ¬ k.CreatesNull prio stackSize) : k.CreateReturns taskEntry prio stackSize := by
  by_cases hok : k.RefusesTask prio
  · exact hok.returns taskEntry stackSize
  obtain ⟨hslot, hprio⟩ := not_or.mp hok
  have hdorm := dormantSlot_dormant k hslot
  obtain ⟨k₁, r, hx, hr⟩ := h.createNew_returns ⟨taskEntry, stackSizeValue stackSize, prio, 0⟩
    k.dormantSlot (stackSizeValue_le.mpr hs)
  have hx' : k.kTskCreateNew ⟨taskEntry, if stackSize < procStackSize then procStackSize else
    stackSize, prio, 0⟩ k.dormantSlot = .ok (k₁, r) := hx
  have hnew := (hA.createNew ⟨taskEntry, stackSizeValue stackSize, prio, 0⟩
    (dormantSlot_ne k)).post.of_ok hx
  unfold Kernel.CreateReturns Kernel.kTskCreate
  dsimp only
  rw [if_neg hslot, if_neg hprio, hx']
  obtain ⟨rfl, hno⟩ | ⟨rfl, base, size, hst⟩ := hr
  · exact ⟨k₁, rtxErr, none, rfl, Or.inr (Or.inr ⟨rfl, hno⟩)⟩
  obtain ⟨hcur, ⟨-, e, -⟩ | ⟨hmem, -, -, hA'⟩⟩ := hnew
  · exact absurd e.symm rtxErr_ne_rtxOk
  obtain hp | rfl | hp := priority2order_cases prio
  · exact absurd hp hprio
  · exact absurd ⟨rfl, hslot, hmem⟩ hnull
  obtain ⟨i, hi⟩ := id hp
  have hrt : (k₁.data k.dormantSlot).realTime = false := by
    rw [hst.data, Function.update_self]
    rfl
  obtain ⟨k₂, h2⟩ := (hA' hp).startNew_returns (hcur.trans_ne h0) (Or.inr rfl) hrt
    (readyAt_priority.mpr hi)
  have hsteady := ((Steady.refl k₁).startNew _ _).of_ok h2
  refine ⟨k₂, rtxOk, some k.dormantSlot, ?_, Or.inr (Or.inl ⟨_, rfl, rfl,
    hst.newTask hsteady hdorm⟩)⟩
  change (k₁.startNew k.dormantSlot (priority2order prio) >>= _) = _
  rw [h2]
  rfl

/-- **Task creation returns**: in every state that is reached, a call of `k_tsk_create` that gets as
    far as its loops returns with a new task, on a stack of at least the size asked for, or with
    ENOMEM, if and only if the size is at most 2^31 and it is not a task with PRIO_NULL that is
    created. -/
theorem create_returns {es : List Event} {taskEntry prio stackSize : Nat} (hb : Booted k)
    (h : Allowed Kernel.step Kernel.Legal k es) (hr : Lib.run Kernel.step k es = some k')
    (hl : k'.Legal (.call (.tskCreate taskEntry prio stackSize))) :
    k'.CreateReturns taskEntry prio stackSize ↔
      k'.RefusesTask prio ∨ stackSize ≤ 2 ^ 31 ∧ ¬ k'.CreatesNull prio stackSize := by
  have h0 : k'.current ≠ tidNull := fun e => by cases hl.2 e
  obtain ⟨A, hA⟩ := Indexed.run hb h hr
  have hS := Stocked.run hb h hr
  refine ⟨fun hc => ?_, fun hc => ?_⟩
  · by_cases hok : k'.RefusesTask prio
    · exact Or.inl hok
    obtain ⟨k₁, r, task, hx, -⟩ := hc
    refine Or.inr ⟨Nat.le_of_not_lt fun hs => ?_, fun hn => ?_⟩
    · rw [k'.kTskCreate_hangs taskEntry hok hs] at hx
      cases hx
    · exact ((hA.kTskCreate h0 taskEntry prio stackSize).post.of_ok hx).1 hn
  · obtain hok | ⟨hs, hn⟩ := hc
    · exact hok.returns taskEntry stackSize
    · exact hA.kTskCreate_returns hS h0 taskEntry hs hn

theorem create_returns_yield : ∃ k', reached threeTasks tameEvents = some k' ∧
    k'.CreateReturns 7 lowest 1000 := by
  have hr : (reached threeTasks tameEvents).any (fun k => k.pend k.current = none ∧
      k.current ≠ tidNull) = true := by decide +kernel
  obtain ⟨k', hk, hc⟩ := (Option.any_eq_true _ _).mp hr
  obtain ⟨hp, h0⟩ := of_decide_eq_true hc
  refine ⟨k', hk, ?_⟩
  exact (create_returns booted_threeTasks (by decide +kernel) hk
    ⟨hp, fun e => absurd e h0⟩).mpr (Or.inr ⟨by decide, fun hn => absurd hn.1 (by decide)⟩)

/-- A stack of 2^31 + 1 bytes: the call does not return. -/
theorem create_hangs : ¬ ∀ (k k' : Kernel) (es : List Event) (taskEntry prio stackSize : Nat),
    Booted k → Allowed Kernel.step Kernel.Legal k es → Lib.run Kernel.step k es = some k' →
    k'.Legal (.call (.tskCreate taskEntry prio stackSize)) → stackSize < 2 ^ 32 →
    k'.CreateReturns taskEntry prio stackSize := by
  intro h
  have hok : ¬ (bootKernel threeTasks).RefusesTask lowest := by decide +kernel
  have hl : (bootKernel threeTasks).Legal (.call (.tskCreate 7 lowest (2 ^ 31 + 1))) :=
    ⟨by decide +kernel, fun e => absurd e (by decide +kernel)⟩
  obtain ⟨k', r, task, hx, -⟩ := h _ _ [] 7 lowest (2 ^ 31 + 1) booted_threeTasks trivial rfl hl
    (by decide)
  rw [Kernel.kTskCreate_hangs _ 7 hok (Nat.lt_succ_self _)] at hx
  cases hx

end Rtx
