/-
  File:      Rtx/Kern/Roster.lean
  Subject:   The tasks of a boot and their TCBs.

  `BootKeeps`: after `k_rtx_init` the four system tasks have their TCBs, every boot task has one of
  its own unless there was no memory for its stack, and the tasks are queued. `boot_keeps` says that
  this is so exactly for up to 12 boot tasks; `k_tsk_init` accepts 13, and the last of them gets
  the TCB of the wall clock.
-/
import Rtx.Kern.Index

namespace Rtx

open Lib

variable {k k' k₀ : Kernel} {L : Lists} {t u : Tid} {info : TaskInit}
  {l : List (Tid × TaskInit)} {tasks : List TaskInit} {m : Mem} {bytes : Nat → UInt8}

/-! ## 1. The first task runs -/

/-- The task is the running one, or on exactly one ready queue exactly once. -/
def Kernel.OnceReady (k : Kernel) (t : Tid) : Prop :=
  t = k.current ∧ (∀ i, t ∉ k.members (.ready i)) ∨
    t ≠ k.current ∧ ∃ i, (k.members (.ready i)).count t = 1 ∧ ∀ j, j ≠ i → t ∉ k.members (.ready j)

/-- The scheduler's choice leaves every task that was created in its TCB. -/
theorem Enrolled.hasTask (h : Enrolled k L l) :
    ∀ x ∈ (tidNull, Kernel.tskInitFirst) :: l, k.runScheduled.HasTask x.1 x.2 := by
  intro x hx
  obtain ⟨s, t, L', hk, -, -, -, hran⟩ := h.sound.placed.runScheduled
  rw [hk]
  have hh := h.holds x hx
  have hset : ∀ {v : TaskState}, v ≠ .dormant → s.data x.1 = { k.data x.1 with state := v } →
      Kernel.HasTask { k with toTasks := s, current := t } x.1 x.2 := by
    intro v hv hd
    refine hh.frame (?_ : (s.data x.1).state ≠ .dormant) ?_
    · rw [hd]
      exact hv
    · exact congrArg (fun d : TcbData => { d with state := .dormant }) hd
  by_cases h0 : x.1 = tidNull
  · obtain ⟨v, hv, hd⟩ := hran.null
    rw [← h0] at hv hd
    rcases hv with rfl | rfl | rfl
    · exact hset (by simp) hd
    · exact hset (by simp) hd
    · exact hset hh.alive hd
  · have hd := hran.others x.1 h0
    split at hd
    · exact hset (by simp) hd
    · exact hh.same hd

/-- The scheduler takes no task that was not created. -/
theorem Enrolled.stays_dormant (h : Enrolled k L l) (h0 : u ≠ tidNull)
    (hu : u ∉ l.map Prod.fst) : (k.runScheduled.data u).state = .dormant := by
  obtain ⟨s, t, L', hk, hn, -, -, hran⟩ := h.sound.placed.runScheduled
  rw [hk]
  have hs := h.fresh u hu h0
  have hut : u ≠ t := by
    intro e
    cases hn with
    | none => exact h0 e
    | head i t l hi =>
        have hm : u ∈ L (.ready i) := by rw [hi, e]; exact List.mem_cons_self
        exact absurd (hs.symm.trans (h.sound.placed.state_of_mem hm)) (by simp [QId.state])
  have hd := hran.others u h0
  rw [if_neg hut] at hd
  exact (congrArg TcbData.state hd).trans hs

/-- Every task that was created is queued, or it runs. -/
theorem Enrolled.onceReady (h : Enrolled k L l) (h0 : u ≠ tidNull)
    (hu : (k.runScheduled.data u).state ≠ .dormant) : k.runScheduled.OnceReady u := by
  obtain ⟨s, t, L', hk, -, hp, -, hran⟩ := h.sound.placed.runScheduled
  rw [hk] at hu ⊢
  have hmem : ∀ q, Kernel.members { k with toTasks := s, current := t } q = L' q := fun q =>
    Placed.members (k := { k with toTasks := s, current := t }) hp q
  unfold Kernel.OnceReady
  simp only [hmem]
  by_cases hut : u = t
  · exact Or.inl ⟨hut, fun i => hp.out u (Or.inl hut) _⟩
  have hd : s.data u = k.data u := by rw [hran.others u h0, if_neg hut]
  have hready : (s.data u).state = .ready := by
    have hu' : (s.data u).state ≠ .dormant := hu
    rw [hd] at hu' ⊢
    exact (h.idle u).resolve_left hu'
  obtain ⟨i, -, hi⟩ := hp.mem_of_ready h0 hut hready
  refine Or.inr ⟨hut, i, ?_, fun j hj hm => hj ?_⟩
  · exact List.count_eq_one_of_mem (hp.rep.chain _).nodup hi
  · exact QId.ready.inj (hp.rep.disj _ _ u hm hi)

/-! ## 2. The boot tasks -/

/-- The tasks that `k_tsk_init` creates itself, with their TCBs. -/
def Kernel.reserved : List (Tid × TaskInit) := (tidNull, Kernel.tskInitFirst) :: Kernel.systemTasks

/-- The boot of the tasks before the `i`-th leaves no memory for the stack of the `i`-th. -/
def NoMemory (m : Mem) (bytes : Nat → UInt8) (tasks : List TaskInit) (i : Nat) (info : TaskInit) :
    Prop :=
  ∃ k, (Kernel.reset m bytes).kRtxInit buddy (tasks.take i) = .ok (k, rtxOk) ∧
    k.hasMemory info.uStackSize = false

/-- **The boot keeps the system tasks**: they are in their TCBs, every boot task has a TCB of its
    own or no memory, and all of them are queued. -/
structure BootKeeps (m : Mem) (bytes : Nat → UInt8) (tasks : List TaskInit) (k : Kernel) :
    Prop where
  system : ∀ x ∈ Kernel.reserved, k.HasTask x.1 x.2
  boot : ∃ slot : Fin tasks.length → Tid, slot.Injective ∧
    (∀ i, slot i ∉ Kernel.reserved.map Prod.fst) ∧
    ∀ i, k.HasTask (slot i) tasks[i] ∨
      (k.tcb (slot i)).state = .dormant ∧ NoMemory m bytes tasks i tasks[i]
  queued : ∀ t, t ≠ tidNull → (k.tcb t).state ≠ .dormant → k.OnceReady t

/-- `k_rtx_init` comes to the boot tasks in a state that does not depend on them. -/
theorem kRtxInit_furnished (hk : (Kernel.reset m bytes).kRtxInit buddy tasks = .ok (k, rtxOk)) :
    tasks.length ≤ maxTasks - 3 ∧ ∃ k₀ L, Furnished k₀ L ∧ ∀ ts : List TaskInit,
      ts.length ≤ maxTasks - 3 → (Kernel.reset m bytes).kRtxInit buddy ts =
        (Kernel.createBootTasks 1 ts k₀ >>= fun k => .ok (k.runScheduled, rtxOk)) := by
  have hblank := blank_memInit m bytes
  unfold Kernel.kRtxInit at hk
  dsimp only at hk
  split at hk
  · cases hk
  split at hk
  · cases hk
  next hmem =>
  obtain ⟨⟨k', r⟩, hk', hk⟩ := bind_eq_ok.mp hk
  dsimp only at hk
  split at hk
  · cases hk
  next hr =>
  obtain rfl := not_not.mp hr
  obtain ⟨hlen, k₀, L, h0, heq⟩ := hblank.furnished hk'
  refine ⟨hlen, k₀, L, h0, fun ts hts => ?_⟩
  have hcheck : ¬ (buddy ≠ buddy ∨ ts.length > maxTasks - 1) := by
    rintro (h | h)
    · exact h rfl
    · exact absurd (h.trans_le hts) (by decide)
  unfold Kernel.kRtxInit
  dsimp only
  rw [if_neg hcheck, if_neg hmem, heq ts hts]
  cases Kernel.createBootTasks 1 ts k₀ with
  | error f => rfl
  | ok k => rfl

theorem hasMemory_congr (h : k'.mem = k.mem) (size : Nat) :
    k'.hasMemory size = k.hasMemory size := by
  unfold Kernel.hasMemory Kernel.mpoolAlloc
  rw [h]
  cases log2 size with
  | none => rfl
  | some power =>
      dsimp only
      cases kMpoolAlloc k.mem mpidIram2 (power2 power) with
      | none => rfl
      | some x =>
          obtain ⟨m, ptr⟩ := x
          cases ptr <;> rfl

/-- The choice of the first task changes no pool. -/
theorem Enrolled.hasMemory (h : Enrolled k L l) (size : Nat) :
    k.runScheduled.hasMemory size = k.hasMemory size := by
  obtain ⟨s, t, L', hk, -, -, he, -⟩ := h.sound.placed.runScheduled
  rw [hk]
  refine hasMemory_congr ?_ size
  unfold Kernel.mem
  rw [he]

/-! ## 3. The whole boot -/

/-- **Up to 12 boot tasks.** -/
theorem bootKeeps_of_le (hk : (Kernel.reset m bytes).kRtxInit buddy tasks = .ok (k, rtxOk))
    (hprio : ∀ t ∈ tasks, t.prio ∈ [high, medium, low, lowest]) (hlen : tasks.length ≤ 12) :
    BootKeeps m bytes tasks k := by
  obtain ⟨hle, k₀, L₀, h0, heq⟩ := kRtxInit_furnished hk
  obtain ⟨k₁, h1, e⟩ := bind_eq_ok.mp ((heq tasks hle).symm.trans hk)
  obtain rfl : k₁.runScheduled = k := congrArg Prod.fst (Except.ok.inj e)
  obtain ⟨L₁, l, he, hb, -⟩ := (h0.createBootTasks hlen (bootPrio hprio)).of_ok h1
  refine ⟨fun x hx => he.hasTask x ?_,
    ⟨fun i => ⟨i.val + 1, by omega⟩, ?_, fun i => ?_, fun i => ?_⟩, fun t => he.onceReady⟩
  · obtain rfl | hx := List.mem_cons.mp hx
    · exact List.mem_cons_self
    · exact List.mem_cons_of_mem _ (hb.old x (List.mem_reverse.mpr hx))
  · intro i j hij
    exact Fin.ext (Nat.succ.inj (congrArg Fin.val hij))
  · have hfree : ∀ t : Tid, 1 ≤ t.val → t.val ≤ 12 → t ∉ Kernel.reserved.map Prod.fst := by decide
    exact hfree _ (Nat.le_add_left 1 _) (Nat.le_trans i.isLt hlen)
  · have h1i : 1 + i.val = i.val + 1 := Nat.add_comm _ _
    obtain hin | ⟨hin, kᵢ, r, hi, hx⟩ := hb.each i i.isLt ⟨i.val + 1, by omega⟩ h1i.symm
    · exact Or.inl (he.hasTask _ (List.mem_cons_of_mem _ hin))
    have htake : (tasks.take i).length ≤ tasks.length := List.length_take_le' _ _
    refine Or.inr ⟨he.stays_dormant (fun e => by cases congrArg Fin.val e) hin,
      kᵢ.runScheduled, ?_, ?_⟩
    · rw [heq _ (htake.trans hle), hi]
      rfl
    · obtain ⟨L', l', he', -⟩ := (h0.createBootTasks (htake.trans hlen)
        (bootPrio fun t ht => hprio t (List.mem_of_mem_take ht))).of_ok hi
      rw [he'.hasMemory]
      have hret := (kTskCreateNew_ends kᵢ tasks[i] ⟨i.val + 1, by omega⟩).of_ok hx
      exact Bool.eq_false_iff.mpr fun hm => rtxErr_ne_rtxOk (hret.mpr hm)

/-- There are 12 TCBs beside those of the system tasks. -/
theorem BootKeeps.length_le (h : BootKeeps m bytes tasks k) : tasks.length ≤ 12 := by
  obtain ⟨slot, hinj, hfree, -⟩ := h.boot
  have hsub : ∀ i ∈ Finset.univ, slot i ∈ ((Finset.univ : Finset Tid).filter fun t =>
      t ∉ Kernel.reserved.map Prod.fst) := fun i _ =>
    Finset.mem_filter.mpr ⟨Finset.mem_univ _, hfree i⟩
  have hcard := Finset.card_le_card_of_injOn slot hsub hinj.injOn
  rw [Finset.card_univ, Fintype.card_fin] at hcard
  exact hcard.trans_eq (by decide)

/-- **The boot keeps the system tasks** if and only if there are at most 12 boot tasks. -/
theorem boot_keeps (hk : (Kernel.reset m bytes).kRtxInit buddy tasks = .ok (k, rtxOk))
    (hprio : ∀ t ∈ tasks, t.prio ∈ [high, medium, low, lowest]) :
    BootKeeps m bytes tasks k ↔ tasks.length ≤ 12 :=
  ⟨BootKeeps.length_le, bootKeeps_of_le hk hprio⟩

theorem boot_keeps_threeTasks :
    BootKeeps blankMem (fun _ => 0) threeTasks (bootKernel threeTasks) :=
  (boot_keeps (bootBlank_eq (by decide +kernel)) (by decide)).mpr (by decide)

/-- With a thirteenth boot task the wall clock has lost its TCB. -/
theorem wall_clock_overwritten : ¬ ∀ (m : Mem) (bytes : Nat → UInt8) (tasks : List TaskInit)
    (k : Kernel), (Kernel.reset m bytes).kRtxInit buddy tasks = .ok (k, rtxOk) →
    (∀ t ∈ tasks, t.prio ∈ [high, medium, low, lowest]) → BootKeeps m bytes tasks k := by
  intro h
  have hx := h blankMem (fun _ => 0) (List.replicate 13 ⟨5, procStackSize, lowest, 0⟩) _
    (bootBlank_eq (by decide +kernel)) (by decide)
  have hw := (hx.system (13, ⟨Kernel.taskWallClock, procStackSize, high, 0⟩)
    (by simp [Kernel.reserved, Kernel.systemTasks])).ptask
  exact absurd hw (by decide +kernel)

end Rtx
