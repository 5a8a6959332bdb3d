/-
  File:      Rtx/Kern/Blocks.lean
  Subject:   The blocks of IRAM1: those of the tasks, and the ring of the UART.

  The links of the allocator's lists are in the memory it hands out. While the tasks give back only
  what they were handed out, and that merges cleanly (`Kernel.FreesCleanly`), the ring of
  `UART_MAILBOX` stays a block of its own (`Heap.Books`), and no event writes a link into it or
  outside IRAM1 (`Heap.Books.exec`).
-/
import Rtx.Kern.Tidy
import Rtx.Mem.Contents

namespace Rtx

open Lib

variable {k k' k₁ : Kernel} {h : Heap} {z : Nat}

/-! ## 1. Definitions -/

/-- The books of IRAM1: the ring of `UART_MAILBOX` is a live block. -/
structure Heap.Books (h : Heap) (k : Kernel) : Prop where
  pool : h.pool = k.ram1
  inv : h.Inv iram1
  ring : ((k.ring .uart).memoryStart, uartMbxSize) ∈ h.live

/-- IRAM1 has such books. -/
def Kernel.Kept (k : Kernel) : Prop := ∃ h : Heap, h.Books k

/-- A list node at the address `z` has a byte of the ring of the UART, or it is not in IRAM1. -/
def Kernel.Spared (k : Kernel) (z : Nat) : Prop :=
  Meets ((k.ring .uart).memoryStart, uartMbxSize) z ∨ z + dnodeSize ≤ iram1.start ∨
    iram1.start + iram1.size ≤ z

/-- IRAM1 is as it was, and so is the place of the UART's ring. -/
structure SameIram1 (k k' : Kernel) : Prop where
  ring : (k'.ring .uart).memoryStart = (k.ring .uart).memoryStart
  ram1 : k'.ram1 = k.ram1

theorem SameIram1.settled (k₀ : Kernel) : Settled (SameIram1 k₀) where
  same h hm hk := ⟨by unfold Kernel.ring; rw [hm]; exact h.ring, hk.ram1.trans h.ram1⟩
  push {k k' m buf} h hk := by
    have ht := (Tidy.settled k).push (Tidy.refl k) hk
    exact ⟨(Mailbox.memoryStart_of_place (ht.place .uart)).trans h.ring,
      (ram1_settled k₀.ram1).push h.ram1 hk⟩
  pop {k k' m buf buf' len r} h hk := by
    have ht := (Tidy.settled k).pop (Tidy.refl k) hk
    exact ⟨(Mailbox.memoryStart_of_place (ht.place .uart)).trans h.ring,
      (ram1_settled k₀.ram1).pop h.ram1 hk⟩

/-- The ring of the UART is where it was, and no node of IRAM1 was written in it or elsewhere
    outside the pool. -/
structure Sparing (k k' : Kernel) : Prop where
  ring : (k'.ring .uart).memoryStart = (k.ring .uart).memoryStart
  mem : ∀ z, k.Spared z → k'.ram1.mem z = k.ram1.mem z

theorem SameIram1.sparing (h : SameIram1 k k') : Sparing k k' :=
  ⟨h.ring, fun z _ => congrFun (congrArg Pool.mem h.ram1) z⟩

theorem Sparing.spared (hs : Sparing k k') (hz : k.Spared z) : k'.Spared z := by
  unfold Kernel.Spared at hz ⊢
  rw [hs.ring]
  exact hz

theorem Sparing.trans (hs : Sparing k k₁) (hs' : Sparing k₁ k') : Sparing k k' :=
  ⟨hs'.ring.trans hs.ring, fun z hz => (hs'.mem z (hs.spared hz)).trans (hs.mem z hz)⟩

/-! ## 2. The two memory calls -/

theorem Kernel.mpoolDealloc_of_ok {p : Pool} {a : Nat}
    (hd : k.ram1.dealloc iram1 (some a) = some (.ok p)) :
    k.mpoolDealloc mpidIram1 (some a) =
      .ok ({ k with ram1 := p, ram2 := k.ram2, errno := k.errno }, rtxOk) := by
  have hk : kMpoolDealloc k.mem mpidIram1 (some a) = some (k.mem.setPool .iram1 p, rtxOk) := by
    refine (Pools.kMpoolDealloc_eq k.mem .iram1 a).trans ?_
    rw [show (k.mem.pool .iram1).dealloc PoolId.iram1.cfg (some a) = _ from hd]
  unfold Kernel.mpoolDealloc
  rw [hk]
  rfl

/-- NULL and a pointer that is not in IRAM1 are refused. -/
theorem Kernel.mpoolDealloc_refused {ptr : Option Nat}
    (hp : ∀ a ∈ ptr, ¬ (iram1.start ≤ a ∧ a ≤ iram1.stop)) :
    ∃ e, k.mpoolDealloc mpidIram1 ptr =
      .ok ({ k with ram1 := k.ram1, ram2 := k.ram2, errno := e }, rtxErr) := by
  cases ptr with
  | none => exact ⟨_, rfl⟩
  | some a =>
      have hd : k.ram1.dealloc iram1 (some a) = some (.error (some .EFAULT)) := by
        unfold Pool.dealloc
        exact if_neg (hp a rfl)
      have hk : kMpoolDealloc k.mem mpidIram1 (some a) = some (k.mem.fail (some .EFAULT), rtxErr) := by
        refine (Pools.kMpoolDealloc_eq k.mem .iram1 a).trans ?_
        rw [show (k.mem.pool .iram1).dealloc PoolId.iram1.cfg (some a) = _ from hd]
      refine ⟨.EFAULT, ?_⟩
      unfold Kernel.mpoolDealloc
      rw [hk]
      rfl

section Books

variable (hb : h.Books k)
include hb

theorem Heap.Books.foreign (hz : k.Spared z) : h.Foreign iram1 z :=
  hz.imp_left fun hm => ⟨_, hb.ring, hm⟩

theorem Heap.Books.same (hs : SameIram1 k k') : h.Books k' := by
  refine ⟨hb.pool.trans hs.ram1.symm, hb.inv, ?_⟩
  rw [hs.ring]
  exact hb.ring

/-- **An alloc in IRAM1** gets through; the block has NULL in its first word. -/
theorem Heap.Books.mpoolAlloc (size : Nat) :
    Ends (k.mpoolAlloc mpidIram1 size) (fun _ => False) fun r => Sparing k r.1 ∧
      (r.2 = none ∧ h.Books r.1 ∨ ∃ a, r.2 = some a ∧
        h.pool.alloc iram1 size = some (.ok (r.1.ram1, a)) ∧
        (h.afterAlloc r.1.ram1 size (some a)).Books r.1 ∧ (r.1.ram1.mem a).prev = none) := by
  unfold Kernel.mpoolAlloc
  rw [show kMpoolAlloc k.mem mpidIram1 size = _ from Pools.kMpoolAlloc_eq k.mem .iram1 size,
    show k.mem.pool .iram1 = h.pool from hb.pool.symm]
  rcases hb.inv.alloc size with ⟨e, h1⟩ | ⟨p, a, h1, h2⟩
  · rw [show h.pool.alloc PoolId.iram1.cfg size = _ from h1]
    have hsame : (k.mem.fail e).ram1 = k.ram1 := k.mem.pool_fail .iram1 e
    exact ⟨⟨rfl, fun z _ => by rw [hsame]⟩, Or.inl ⟨rfl, hb.same ⟨rfl, hsame⟩⟩⟩
  · rw [show h.pool.alloc PoolId.iram1.cfg size = _ from h1]
    refine ⟨⟨rfl, fun z hz => ?_⟩, Or.inr ⟨a, rfl, h1, ⟨rfl, h2, ?_⟩, hb.inv.alloc_first h1⟩⟩
    · rw [← hb.pool]
      exact hb.inv.alloc_spares h1 (hb.foreign hz)
    · exact List.mem_cons_of_mem _ hb.ring

/-- What `FreesCleanly` says, in terms of the books. -/
theorem Heap.Books.owns {a : Nat} (hf : k.FreesCleanly (.call (.memDealloc (some a))))
    (hin : iram1.start ≤ a ∧ a ≤ iram1.stop) :
    a ≠ (k.ring .uart).memoryStart ∧ h.pool.freesCleanly iram1 a = true ∧
      ∃ x ∈ h.live, x.1 = a := by
  obtain ⟨h1, h2, h3⟩ := hf hin
  rw [← hb.pool] at h1 h3
  have hsize : blockBytes uartMbxSize ≠ iram1.size := by decide
  exact ⟨h2, h3, (hb.inv.allocatedAt_iff hb.ring hsize a).mp h1⟩

/-- **A dealloc of a task** gets through. -/
theorem Heap.Books.mpoolDealloc {ptr : Option Nat} (hf : k.FreesCleanly (.call (.memDealloc ptr))) :
    Ends (k.mpoolDealloc mpidIram1 ptr) (fun _ => False) fun r => Sparing k r.1 ∧ r.1.Kept := by
  by_cases hp : ∀ a ∈ ptr, ¬ (iram1.start ≤ a ∧ a ≤ iram1.stop)
  · obtain ⟨e, hd⟩ := Kernel.mpoolDealloc_refused (k := k) hp
    exact Ends.intro_ok hd ⟨⟨rfl, fun _ _ => rfl⟩, h, hb.same ⟨rfl, rfl⟩⟩
  · push Not at hp
    obtain ⟨a, rfl, hin⟩ := hp
    obtain ⟨hne, hclean, x, hx, rfl⟩ := hb.owns hf hin
    obtain ⟨p, h1, h2⟩ := hb.inv.dealloc hx hclean
    have hring : ((k.ring .uart).memoryStart, uartMbxSize) ∈ (h.afterDealloc p x.1).live :=
      List.mem_filter.mpr ⟨hb.ring, by simpa using hne.symm⟩
    have hd : k.ram1.dealloc iram1 (some x.1) = some (.ok p) := by
      rw [← hb.pool]
      exact h1
    refine Ends.intro_ok (Kernel.mpoolDealloc_of_ok hd) ⟨⟨rfl, fun z hz => ?_⟩, ?_⟩
    · rw [← hb.pool]
      exact hb.inv.dealloc_spares hx hclean h1 (hz.imp_left fun hm => ⟨_, hring, hm⟩)
    · exact ⟨_, rfl, h2, hring⟩

/-- **What an alloc has handed out can be given back**, as long as IRAM1 has not changed. -/
theorem Heap.Books.giveBack {size : Nat} {ptr : Option Nat}
    (hal : k.mpoolAlloc mpidIram1 size = .ok (k₁, ptr)) (hs : SameIram1 k₁ k') :
    Ends (k'.mpoolDealloc mpidIram1 ptr) (fun _ => False) fun r => Sparing k r.1 ∧ r.1.Kept := by
  obtain ⟨h1, ⟨rfl, h2⟩ | ⟨a, rfl, h2, -⟩⟩ := (hb.mpoolAlloc size).of_ok hal
  · have hno : ∀ a ∈ (none : Option Nat), ¬ (iram1.start ≤ a ∧ a ≤ iram1.stop) := by simp
    obtain ⟨e, hd⟩ := Kernel.mpoolDealloc_refused (k := k') hno
    exact Ends.intro_ok hd ⟨h1.trans ⟨hs.ring, fun z _ => by rw [hs.ram1]⟩, h,
      (h2.same hs).same ⟨rfl, rfl⟩⟩
  · have hr := hs.ring.trans h1.ring
    rw [← hs.ram1] at h2
    obtain ⟨r, h3, h4, h5⟩ := hb.inv.undo (List.ne_nil_of_mem hb.ring) h2
    refine Ends.intro_ok (Kernel.mpoolDealloc_of_ok h3) ⟨⟨hr, fun z hz => ?_⟩, ?_⟩
    · rw [← hb.pool]
      exact h5 z (hb.foreign hz)
    · refine ⟨_, rfl, h4, ?_⟩
      change ((k'.ring .uart).memoryStart, uartMbxSize) ∈ h.live
      rw [hr]
      exact hb.ring

end Books

/-! ## 3. Events -/

/-- `k_mbx_create` makes a mailbox, or changes none. -/
theorem Kernel.kMbxCreate_mailbox {m : MbxId} (k : Kernel) (hm : mbxAt k.cur.tid = .ok m)
    (size : Nat) :
    Post (k.kMbxCreate size) fun r => (r.2 = rtxErr ∧ r.1.mailbox = k.mailbox) ∨
      (r.2 ≠ rtxErr ∧ (k.mailbox m).active = false ∧
        ∃ a, r.1.mailbox = Function.update k.mailbox m ⟨true, Mb.create a size⟩) := by
  unfold Kernel.kMbxCreate
  apply Ends.bind_ok hm
  apply Ends.ite
  · exact fun _ => Or.inl ⟨rfl, rfl⟩
  intro hact
  apply Ends.ite
  · exact fun _ => Or.inl ⟨rfl, rfl⟩
  intro _
  apply Ends.bind Ends.returned
  intro r hr
  obtain ⟨k₁, ptr⟩ := r
  obtain ⟨mem, -, rfl⟩ := mpoolAlloc_eq_ok hr
  cases ptr with
  | none => exact Or.inl ⟨rfl, rfl⟩
  | some a =>
      have hret : ((k.cur.tid : Nat) : Int) ≠ rtxErr := by
        unfold rtxErr
        omega
      exact Or.inr ⟨hret, Bool.eq_false_iff.mpr hact, a, rfl⟩

/-- A new mailbox is a task's. -/
theorem Kernel.kMbxCreate_others (k : Kernel) (size : Nat) :
    Post (k.kMbxCreate size) fun r => ∀ m, r.1.mailbox m = k.mailbox m ∨
      m ≠ .uart ∧ (k.mailbox m).active = false := by
  cases hm : mbxAt k.cur.tid with
  | error e =>
      unfold Kernel.kMbxCreate
      dsimp only
      rw [hm]
      exact trivial
  | ok m =>
      have hne : m ≠ .uart := by
        unfold mbxAt at hm
        split at hm
        · obtain rfl := Except.ok.inj hm
          exact fun e => by cases e
        · cases hm
      apply (k.kMbxCreate_mailbox hm size).imp
      rintro r (⟨-, e⟩ | ⟨-, hact, a, e⟩) m'
      · exact Or.inl (congrFun e m')
      · by_cases hm' : m' = m
        · subst hm'
          exact Or.inr ⟨hne, hact⟩
        · exact Or.inl (e ▸ Function.update_of_ne hm' _ _)

theorem Kernel.kTskCreate_mailbox (k : Kernel) (taskEntry prio stackSize : Nat) :
    Post (k.kTskCreate taskEntry prio stackSize) fun r => r.1.mailbox = k.mailbox := by
  unfold Kernel.kTskCreate
  apply Ends.ite
  · exact fun _ => rfl
  intro _
  apply Ends.ite
  · exact fun _ => rfl
  intro _
  apply Ends.bind (k.kTskCreateNew_ram1 _ _)
  intro r hr
  apply Ends.ite
  · exact fun _ => hr.2
  intro _
  exact Ends.bind (r.1.startNew_tasksOnly _ _) fun k₃ h3 => h3.mailbox.trans hr.2

/-- **No event moves the ring of the UART.** -/
theorem exec_uart (k : Kernel) (e : Event) :
    Post (k.exec e) fun r => (r.1.ring .uart).memoryStart = (k.ring .uart).memoryStart := by
  cases he : e.keepsHomes with
  | true => exact (exec_tidy k he).imp fun r hr => Mailbox.memoryStart_of_place (hr.place .uart)
  | false =>
      cases e with
      | resume | timer | overwrite => cases he
      | call c =>
          have hring : ∀ {k' : Kernel}, k'.mailbox .uart = k.mailbox .uart →
              (k'.ring .uart).memoryStart = (k.ring .uart).memoryStart := fun h =>
            congrArg (fun b : Mailbox => b.memoryBuffer.memoryStart) h
          cases c with
          | tskCreate taskEntry prio stackSize =>
              exact Ends.bind (k.kTskCreate_mailbox taskEntry prio stackSize) fun _ hr =>
                hring (congrFun hr _)
          | mbxCreate size =>
              apply Ends.bind (k.kMbxCreate_others size)
              exact fun _ hr => hring ((hr .uart).resolve_right fun hn => hn.1 rfl)
          | _ => cases he

/-- **An event keeps the books**, if it gets through, and writes no node into the ring of the UART
    or outside IRAM1. -/
theorem Kernel.Kept.exec (hb : k.Kept) {e : Event} (hf : k.FreesCleanly e) :
    Post (k.exec e) fun r => Sparing k r.1 ∧ r.1.Kept := by
  obtain ⟨h, hb⟩ := hb
  by_cases ha : ∃ size, e = .call (.memAlloc size)
  · obtain ⟨size, rfl⟩ := ha
    refine Ends.bind (hb.mpoolAlloc size).post fun r hr => ⟨hr.1, ?_⟩
    rcases hr.2 with ⟨-, hr⟩ | ⟨a, -, -, hr, -⟩
    · exact ⟨h, hr⟩
    · exact ⟨_, hr⟩
  by_cases hd : ∃ ptr, e = .call (.memDealloc ptr)
  · obtain ⟨ptr, rfl⟩ := hd
    exact Ends.bind (hb.mpoolDealloc hf).post fun r hr => hr
  refine ((exec_ram1 k (fun size e => ha ⟨size, e⟩) fun ptr e => hd ⟨ptr, e⟩).both
    (exec_uart k e)).imp fun r hr => ?_
  have hs : SameIram1 k r.1 := ⟨hr.2, hr.1⟩
  exact ⟨hs.sparing, h, hb.same hs⟩

/-- **The run lemma.** -/
theorem Kernel.Kept.run {es : List Event} (hb : k.Kept)
    (ha : Allowed Kernel.step (fun k e => k.FreesCleanly e) k es)
    (hr : Lib.run Kernel.step k es = some k') : Sparing k k' ∧ k'.Kept := by
  apply run_reached (fun k' => Sparing k k' ∧ k'.Kept) _ ⟨⟨rfl, fun _ _ => rfl⟩, hb⟩ ha hr
  rintro k₁ e k₂ ⟨hs, hk⟩ hf hstep
  obtain ⟨r, hx⟩ := Kernel.step_eq_some.mp hstep
  obtain ⟨h1, h2⟩ := (hk.exec hf).of_ok hx
  exact ⟨hs.trans h1, h2⟩

/-! ## 4. Boot -/

theorem Kernel.createSystemTasks_ram1 (ts : List (Tid × TaskInit)) (k : Kernel) :
    Post (Kernel.createSystemTasks ts k) fun r => r.1.ram1 = k.ram1 := by
  induction ts generalizing k with
  | nil => exact rfl
  | cons x ts ih =>
      obtain ⟨t, info⟩ := x
      unfold Kernel.createSystemTasks
      apply Ends.bind (k.kTskCreateNew_ram1 info t)
      intro r hr
      apply Ends.ite
      · intro _
        apply Ends.bind Ends.trivial
        intro q _
        apply Ends.bind (r.1.pushTail_tasksOnly t q)
        intro k₂ h2
        exact (ih k₂).imp fun _ h3 => h3.trans (h2.ram1.trans hr.1)
      · exact fun _ => hr.1

theorem Kernel.createBootTasks_ram1 (i : Nat) (ts : List TaskInit) (k : Kernel) :
    Post (Kernel.createBootTasks i ts k) fun k' => k'.ram1 = k.ram1 ∧ k'.mailbox = k.mailbox := by
  induction ts generalizing i k with
  | nil => exact ⟨rfl, rfl⟩
  | cons info ts ih =>
      unfold Kernel.createBootTasks
      apply Ends.bind Ends.trivial
      intro t _
      apply Ends.bind (k.kTskCreateNew_ram1 info t)
      intro r hr
      apply Ends.ite
      · intro _
        apply Ends.bind Ends.trivial
        intro q _
        apply Ends.bind (r.1.pushTail_tasksOnly t q)
        intro k₂ h2
        exact (ih _ k₂).imp fun _ h3 => ⟨h3.1.trans (h2.ram1.trans hr.1),
          h3.2.trans (h2.mailbox.trans hr.2)⟩
      · exact fun _ => (ih _ r.1).imp fun _ h3 => ⟨h3.1.trans hr.1, h3.2.trans hr.2⟩

/-- `UART_MAILBOX` gets the first block of IRAM1. -/
theorem Kernel.createUartMailbox_kept (hI : (⟨k.ram1, [], []⟩ : Heap).Inv iram1) :
    Post k.createUartMailbox fun r => r.2 = rtxOk → r.1.Kept := by
  obtain ⟨m, ptr, hal, -, hblk⟩ := mpoolAlloc_heap .iram1 hI rfl uartMbxSize
  unfold Kernel.createUartMailbox
  apply Ends.bind_ok hal
  obtain ⟨rfl, -⟩ | ⟨a, rfl, hheap⟩ := hblk
  · exact fun e => absurd e rtxErr_ne_rtxOk
  · exact fun _ => ⟨_, rfl, hheap, List.mem_cons_self⟩

theorem Kernel.kTskInit_kept (hI : (⟨k.ram1, [], []⟩ : Heap).Inv iram1) (tasks : List TaskInit) :
    Post (k.kTskInit tasks) fun r => r.2 = rtxOk → r.1.Kept := by
  unfold Kernel.kTskInit
  refine Ends.ite (fun _ e => absurd e rtxErr_ne_rtxOk) fun _ => ?_
  apply Ends.bind (Kernel.kTskCreateNew_ram1 _ _ _)
  intro r₁ h1
  refine Ends.ite (fun _ e => absurd e rtxErr_ne_rtxOk) fun _ => ?_
  apply Ends.bind (Kernel.createSystemTasks_ram1 _ _)
  intro r₂ h2
  refine Ends.ite (fun _ e => absurd e rtxErr_ne_rtxOk) fun _ => ?_
  have hram : r₂.1.ram1 = k.ram1 := h2.trans h1.1
  apply Ends.bind (Kernel.createUartMailbox_kept (hram ▸ hI))
  intro r₃ h3
  refine Ends.ite (fun _ e => absurd e rtxErr_ne_rtxOk) fun hok => ?_
  apply Ends.bind (Kernel.createBootTasks_ram1 _ _ _)
  rintro k₄ ⟨h4, h5⟩ -
  obtain ⟨h, hb⟩ := h3 (not_not.mp hok)
  have hrun := k₄.runScheduled_tasksOnly
  refine ⟨h, hb.same ⟨?_, hrun.ram1.trans h4⟩⟩
  unfold Kernel.ring
  rw [hrun.mailbox, h5]

/-- **The boot** opens the books. -/
theorem Booted.kept (hb : Booted k) : k.Kept := by
  obtain ⟨m, bytes, tasks, hk, -⟩ := hb
  have hpost : Post ((Kernel.reset m bytes).kRtxInit buddy tasks) fun r =>
      r.2 = rtxOk → r.1.Kept := by
    unfold Kernel.kRtxInit
    refine Ends.ite (fun _ e => absurd e rtxErr_ne_rtxOk) fun _ => ?_
    refine Ends.ite (fun _ e => absurd e rtxErr_ne_rtxOk) fun _ => ?_
    have hI := Pools.Inv.init ((Kernel.reset m bytes).setErrno .zero).mem .iram1
    refine Ends.bind (Kernel.kTskInit_kept ?_ tasks) fun r hr => ?_
    · exact hI
    · exact Ends.ite (fun _ e => absurd e rtxErr_ne_rtxOk) fun hx _ => hr (not_not.mp hx)
  exact hpost.of_ok hk rfl

end Rtx
