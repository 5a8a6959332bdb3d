/-
  File:      Rtx/Mem/Pools.lean
  Subject:   Runs of `k_mpool_alloc` and `k_mpool_dealloc` on the two pools.

  The users of both pools call in any order. While every dealloc of a run merges cleanly
  (`Pool.freesCleanly`) the calls return, the live blocks of each pool are pairwise disjoint and
  inside it (`run_safe`), and a pool with nothing alive is as `k_mem_init` made it except for the
  root's bit, which only freeing the whole pool clears (`run_restored`).

  A dealloc whose buddy is the last of several nodes of its list is not clean, and the pool then
  hands out overlapping blocks (`overlapping_blocks`). Which pointers dealloc refuses depends on
  the bits around them alone (`free_refused`).
-/
import Rtx.Lib.Runs
import Rtx.Mem.Heap

namespace Rtx

open Lib

/-! ## 1. The two pools and their users -/

inductive PoolId where
  | iram1 | iram2
  deriving DecidableEq, Repr

namespace PoolId

def cfg : PoolId → PoolCfg
  | .iram1 => Rtx.iram1
  | .iram2 => Rtx.iram2

def mpid : PoolId → Int
  | .iram1 => mpidIram1
  | .iram2 => mpidIram2

end PoolId

namespace Mem

def pool (m : Mem) : PoolId → Pool
  | .iram1 => m.ram1
  | .iram2 => m.ram2

def setPool (m : Mem) (i : PoolId) (p : Pool) : Mem :=
  match i with
  | .iram1 => { m with ram1 := p }
  | .iram2 => { m with ram2 := p }

variable (m : Mem) (i j : PoolId) (p : Pool) (e : Option Errno)

theorem pool_setPool : (m.setPool i p).pool j = if j = i then p else m.pool j := by
  cases i <;> cases j <;> rfl

@[simp] theorem pool_fail : (m.fail e).pool j = m.pool j := by cases j <;> rfl

end Mem

/-- The memory and the books of the users of each pool. -/
structure Pools where
  mem : Mem
  live : PoolId → List (Nat × Nat)
  freed : PoolId → List (Nat × Nat)

namespace Pools

def heap (s : Pools) (i : PoolId) : Heap := ⟨s.mem.pool i, s.live i, s.freed i⟩

/-- What `k_mem_init(BUDDY)` leaves. -/
def init (m : Mem) : Pools := ⟨(kMemInit m buddy).1, fun _ => [], fun _ => []⟩

/-- A call on one of the pools, or a write into it. -/
def step (s : Pools) : PoolId × HeapOp → Option Pools
  | (i, .alloc size) =>
      match kMpoolAlloc s.mem i.mpid size with
      | none => none
      | some (m, none) => some { s with mem := m }
      | some (m, some a) =>
          some { s with mem := m, live := Function.update s.live i ((a, size) :: s.live i) }
  | (i, .dealloc ptr) =>
      match kMpoolDealloc s.mem i.mpid (some ptr) with
      | none => none
      | some (m, r) =>
          if r = rtxOk then
            some {
              mem := m
              live := Function.update s.live i ((s.live i).filter (·.1 != ptr))
              freed := Function.update s.freed i
                ((s.live i).filter (·.1 == ptr) ++ s.freed i) }
          else some { s with mem := m }
  | (i, .write a d) =>
      let p := s.mem.pool i
      some { s with mem := s.mem.setPool i { p with mem := Function.update p.mem a d } }

/-- Only live blocks are freed or written to. -/
def Proper (s : Pools) (op : PoolId × HeapOp) : Prop := (s.heap op.1).Proper op.2

/-- And a block that is freed merges cleanly. -/
def Clean (s : Pools) (op : PoolId × HeapOp) : Prop := (s.heap op.1).Clean op.1.cfg op.2

instance (s : Pools) (op : PoolId × HeapOp) : Decidable (s.Proper op) :=
  inferInstanceAs (Decidable (Heap.Proper _ _))

instance (s : Pools) (op : PoolId × HeapOp) : Decidable (s.Clean op) :=
  inferInstanceAs (Decidable (Heap.Clean _ _ _))

/-! ## 2. One call on one pool -/

/-- `k_mpool_alloc` is `alloc` in the pool of its id. -/
theorem kMpoolAlloc_eq (m : Mem) (i : PoolId) (size : Nat) :
    kMpoolAlloc m i.mpid size =
      match (m.pool i).alloc i.cfg size with
      | none => none
      | some (.error e) => some (m.fail e, none)
      | some (.ok (p, a)) => some (m.setPool i p, some a) := by
  by_cases h0 : size = 0
  · subst h0
    cases i <;> rfl
  · have h1 : (mpidIram2 = mpidIram1) = False := by decide
    unfold kMpoolAlloc
    rw [if_neg h0]
    cases i
    · simp only [PoolId.mpid, if_true, Mem.pool, PoolId.cfg]
      cases m.ram1.alloc iram1 size with
      | none => rfl
      | some r => cases r <;> rfl
    · simp only [PoolId.mpid, h1, if_false, if_true, Mem.pool, PoolId.cfg]
      cases m.ram2.alloc iram2 size with
      | none => rfl
      | some r => cases r <;> rfl

/-- `k_mpool_dealloc` is `dealloc` in the pool of its id. -/
theorem kMpoolDealloc_eq (m : Mem) (i : PoolId) (ptr : Nat) :
    kMpoolDealloc m i.mpid (some ptr) =
      match (m.pool i).dealloc i.cfg (some ptr) with
      | none => none
      | some (.error e) => some (m.fail e, rtxErr)
      | some (.ok p) => some (m.setPool i p, rtxOk) := by
  have h1 : (mpidIram2 = mpidIram1) = False := by decide
  unfold kMpoolDealloc
  rw [if_neg (by simp)]
  cases i
  · simp only [PoolId.mpid, if_true, Mem.pool, PoolId.cfg]
    cases m.ram1.dealloc iram1 (some ptr) with
    | none => rfl
    | some r => cases r <;> rfl
  · simp only [PoolId.mpid, h1, if_false, if_true, Mem.pool, PoolId.cfg]
    cases m.ram2.dealloc iram2 (some ptr) with
    | none => rfl
    | some r => cases r <;> rfl

variable {s s' : Pools}

/-- The invariant: every pool keeps its own. -/
def Inv (s : Pools) : Prop := ∀ i, (s.heap i).Inv i.cfg

/-- A step that changes one pool's heap keeps the invariant when that heap does. -/
theorem Inv.update (hI : s.Inv) (i : PoolId) (hi : (s'.heap i).Inv i.cfg)
    (hj : ∀ j, j ≠ i → s'.heap j = s.heap j) : s'.Inv := by
  intro j
  by_cases h : j = i
  · exact h ▸ hi
  · exact hj j h ▸ hI j

theorem Inv.init (m : Mem) : (init m).Inv := by
  intro i
  cases i
  · exact Heap.Inv.created _ _
  · exact Heap.Inv.created _ _

/-- **A clean step returns and keeps the invariant.** -/
theorem Inv.step (hI : s.Inv) {op : PoolId × HeapOp} (hop : s.Clean op) :
    ∃ s', s.step op = some s' ∧ s'.Inv := by
  obtain ⟨i, op⟩ := op
  cases op with
  | alloc size =>
      unfold Pools.step
      simp only [kMpoolAlloc_eq]
      rcases (hI i).alloc size with ⟨e, h1⟩ | ⟨p, a, h1, h2⟩
      · rw [show (s.mem.pool i).alloc i.cfg size = _ from h1]
        refine ⟨_, rfl, fun j => ?_⟩
        simp only [Pools.heap, Mem.pool_fail]
        exact hI j
      · rw [show (s.mem.pool i).alloc i.cfg size = _ from h1]
        refine ⟨_, rfl, hI.update i ?_ fun j hj => ?_⟩
        · simp only [Pools.heap, Mem.pool_setPool, if_true, Function.update_self]
          exact h2
        · simp only [Pools.heap, Mem.pool_setPool, if_neg hj, Function.update_of_ne hj]
  | dealloc ptr =>
      obtain ⟨⟨x, hx, rfl⟩, hclean⟩ := hop
      obtain ⟨p, h1, h2⟩ := (hI i).dealloc hx hclean
      unfold Pools.step
      simp only [kMpoolDealloc_eq]
      rw [show (s.mem.pool i).dealloc i.cfg (some x.1) = _ from h1]
      refine ⟨_, rfl, hI.update i ?_ fun j hj => ?_⟩
      · simp only [Pools.heap, Mem.pool_setPool, if_true, Function.update_self]
        exact h2
      · simp only [Pools.heap, Mem.pool_setPool, if_neg hj, Function.update_of_ne hj]
  | write a d =>
      obtain ⟨⟨x, hx, ha, ha'⟩, -⟩ := hop
      refine ⟨_, rfl, hI.update i ?_ fun j hj => ?_⟩
      · simp only [Pools.heap, Mem.pool_setPool, if_true]
        exact (hI i).write hx ha ha' d
      · simp only [Pools.heap, Mem.pool_setPool, if_neg hj]

/-! ## 3. Runs -/

theorem Inv.run {ops : List (PoolId × HeapOp)} (hI : s.Inv)
    (h : Allowed Pools.step Clean s ops) : ∃ s', Lib.run Pools.step s ops = some s' ∧ s'.Inv :=
  run_inv Inv (fun _ _ hI hop => hI.step hop) hI h

/-- **Safety of the allocator.** In every run in which only live blocks are freed, and each merges
    cleanly, every call returns, and the live blocks of each pool are inside it, pairwise disjoint
    and of the size for their request. -/
theorem run_safe (m : Mem) (ops : List (PoolId × HeapOp))
    (h : Allowed Pools.step Clean (init m) ops) :
    ∃ s, Lib.run Pools.step (init m) ops = some s ∧ ∀ i, (s.heap i).Safe i.cfg := by
  obtain ⟨s, hs, hI⟩ := (Inv.init m).run h
  exact ⟨s, hs, fun i => (hI i).safe⟩

/-- Memory before `k_mem_init`: all zero. -/
def blank : Mem :=
  let p : Pool := ⟨fun _ => 0, fun _ => ⟨none, none⟩, fun _ => ⟨none, none⟩⟩
  ⟨p, p, .zero⟩

/-- Two buddies of 32 bytes, freed in turn. -/
theorem run_safe_pair :
    ∃ s, Lib.run Pools.step (init blank) [(.iram1, .alloc 20), (.iram2, .alloc 40),
        (.iram1, .alloc 32), (.iram1, .dealloc 0x10007000), (.iram1, .dealloc 0x10007020)] =
      some s ∧ ∀ i, (s.heap i).Safe i.cfg :=
  run_safe blank _ (by decide +kernel)

/-- **Without clean merging the blocks overlap.** Four blocks of 32 bytes, the first, the third and
    the second freed: the buddy of the second is last in its list of two, stays there although
    merged, and is handed out inside the block of 64 bytes handed out after it. -/
theorem overlapping_blocks :
    ¬ ∀ (ops : List (PoolId × HeapOp)), Allowed Pools.step Proper (init blank) ops →
      ∀ s, Lib.run Pools.step (init blank) ops = some s → ∀ i, (s.heap i).Safe i.cfg := by
  intro h
  obtain ⟨s, hs, hlive⟩ : ∃ s, Lib.run Pools.step (init blank) [(.iram1, .alloc 32),
      (.iram1, .alloc 32), (.iram1, .alloc 32), (.iram1, .alloc 32),
      (.iram1, .dealloc 0x10007000), (.iram1, .dealloc 0x10007040),
      (.iram1, .dealloc 0x10007020), (.iram1, .alloc 32), (.iram1, .alloc 32),
      (.iram1, .alloc 64)] = some s ∧ s.live .iram1 =
        [(0x10007000, 64), (0x10007000, 32), (0x10007040, 32), (0x10007060, 32)] :=
    ⟨_, rfl, by decide +kernel⟩
  have hd := (h _ (by decide +kernel) s hs .iram1).disjoint
  rw [show (s.heap .iram1).live = s.live .iram1 from rfl, hlive] at hd
  have := (List.pairwise_cons.mp hd).1 (0x10007000, 32) (by simp)
  have h1 := Nat.two_pow_pos (blockLog2 64)
  have h2 := Nat.two_pow_pos (blockLog2 32)
  simp only [blockBytes] at this
  omega

/-- **Complete coalescing, up to the root's bit.** When a run whose deallocs merge cleanly ends
    with no live block in a pool, the pool is as it was created if and only if nothing was freed
    in it or the last block freed was the whole pool. -/
theorem run_restored (m : Mem) (ops : List (PoolId × HeapOp))
    (h : Allowed Pools.step Clean (init m) ops) :
    ∃ s, Lib.run Pools.step (init m) ops = some s ∧
      ∀ i, s.live i = [] → ((s.mem.pool i).Restored i.cfg ↔
        ∀ x ∈ (s.freed i).head?, blockBytes x.2 = i.cfg.size) := by
  obtain ⟨s, hs, hI⟩ := (Inv.init m).run h
  exact ⟨s, hs, fun i hl => (hI i).restored_iff hl⟩

theorem run_restored_whole :
    ∃ s, Lib.run Pools.step (init blank) [(.iram1, .alloc 32), (.iram1, .dealloc 0x10007000),
        (.iram1, .alloc 4000), (.iram1, .dealloc 0x10007000)] = some s ∧
      ∀ i, s.live i = [] → ((s.mem.pool i).Restored i.cfg ↔
        ∀ x ∈ (s.freed i).head?, blockBytes x.2 = i.cfg.size) :=
  run_restored blank _ (by decide +kernel)

/-- **The root's bit is left set.** One block of 32 bytes, taken and freed. -/
theorem root_bit_left :
    ¬ ∀ (ops : List (PoolId × HeapOp)), Allowed Pools.step Proper (init blank) ops →
      ∀ s, Lib.run Pools.step (init blank) ops = some s →
        ∀ i, s.live i = [] → (s.mem.pool i).Restored i.cfg := by
  intro h
  have hrun : ∃ s, Lib.run Pools.step (init blank)
      [(.iram1, .alloc 32), (.iram1, .dealloc 0x10007000)] = some s ∧
        s.live .iram1 = [] ∧ (s.mem.pool .iram1).check 0 = true :=
    ⟨_, rfl, by decide +kernel, by decide +kernel⟩
  obtain ⟨s, hs, hl, hb⟩ := hrun
  have := (h _ (by decide +kernel) s hs .iram1 hl).bits 0
  rw [hb] at this
  exact absurd this (by decide)

/-! ## 4. Invalid frees -/

/-- `k_mpool_dealloc(ptr)` fails and changes no pool. -/
def Refused (s : Pools) (i : PoolId) (ptr : Option Nat) : Prop :=
  ∃ e, kMpoolDealloc s.mem i.mpid ptr = some ({ s.mem with errno := e }, rtxErr)

theorem refused_iff (s : Pools) (i : PoolId) (ptr : Option Nat) :
    s.Refused i ptr ↔ ∃ e, (s.mem.pool i).dealloc i.cfg ptr = some (.error e) := by
  cases ptr with
  | none => exact ⟨fun _ => ⟨none, rfl⟩, fun _ => ⟨s.mem.errno, rfl⟩⟩
  | some a =>
      rw [Refused, kMpoolDealloc_eq]
      cases (s.mem.pool i).dealloc i.cfg (some a) with
      | none => simp
      | some r =>
          cases r with
          | error e => exact ⟨fun _ => ⟨e, rfl⟩, fun _ => ⟨_, rfl⟩⟩
          | ok p =>
              refine ⟨fun ⟨e, he⟩ => ?_, fun ⟨e, he⟩ => ?_⟩
              · have h1 := (Prod.mk.inj (Option.some.inj he)).2
                exact absurd h1 (by decide)
              · cases he

/-- **Which frees are refused.** Dealloc fails and changes nothing exactly when the pointer is NULL,
    outside the pool, or in no block whose bit is set. After a run whose deallocs merge cleanly the
    root's bit decides: a pointer into the pool is refused exactly when nothing is alive and nothing
    was freed, or the last block freed was the whole pool. -/
theorem free_refused (s : Pools) (i : PoolId) (ptr : Option Nat) :
    (s.Refused i ptr ↔ ∀ a ∈ ptr, i.cfg.start ≤ a ∧ a ≤ i.cfg.stop →
      Unmarked i.cfg (s.mem.pool i) a) ∧
    ∀ (m : Mem) (ops : List (PoolId × HeapOp)), Allowed Pools.step Clean (init m) ops →
      Lib.run Pools.step (init m) ops = some s →
      (s.Refused i ptr ↔ ∀ a ∈ ptr, i.cfg.start ≤ a ∧ a ≤ i.cfg.stop →
        s.live i = [] ∧ ∀ x ∈ (s.freed i).head?, blockBytes x.2 = i.cfg.size) := by
  have h1 := (s.refused_iff i ptr).trans (dealloc_error_iff ptr)
  refine ⟨h1, fun m ops h hs => h1.trans ?_⟩
  obtain ⟨s', hs', hI⟩ := (Inv.init m).run h
  obtain rfl : s = s' := Option.some.inj (hs.symm.trans hs')
  refine forall₃_congr fun a _ hin => ?_
  constructor
  · -- the root's block contains every address of the pool
    intro hu
    have hb : (s.mem.pool i).bit [] = false := by
      refine hu [] (Nat.zero_le _) ?_ ?_
      · rw [PoolCfg.addr_root]
        exact hin.1
      · have h2 := i.cfg.stop_eq
        have h3 := i.cfg.size_eq
        rw [PoolCfg.addr_root, BlockTree.blockSize, List.length_nil, Nat.sub_zero]
        omega
    have hroot := (hI i).root.not.mp (Bool.eq_false_iff.mp hb)
    obtain ⟨hl, hf⟩ := not_or.mp hroot
    refine ⟨not_not.mp hl, fun x hx => ?_⟩
    by_contra hne
    exact hf ⟨x, hx, hne⟩
  · rintro ⟨hl, hf⟩ n - - -
    exact (((hI i).restored_iff hl).mpr hf).bits _

theorem free_refused_whole : ∃ s, Lib.run Pools.step (init blank) [(.iram1, .alloc 4000),
      (.iram1, .dealloc 0x10007000)] = some s ∧ s.Refused .iram1 (some 0x10007000) := by
  refine ⟨_, rfl, ((free_refused _ .iram1 (some 0x10007000)).2 blank [(.iram1, .alloc 4000),
    (.iram1, .dealloc 0x10007000)] (by decide +kernel) rfl).mpr fun a _ _ => ?_⟩
  exact ⟨by decide +kernel, by decide +kernel⟩

/-- **A free address is accepted** while the pool holds a live block: the bit of a split block
    counts as that of a block handed out. -/
theorem free_address_accepted :
    ¬ ∀ (ops : List (PoolId × HeapOp)), Allowed Pools.step Proper (init blank) ops →
      ∀ s, Lib.run Pools.step (init blank) ops = some s →
        ∀ i (ptr : Option Nat), (∀ a ∈ ptr, ∀ x ∈ s.live i, x.1 ≠ a) → s.Refused i ptr := by
  intro h
  have hrun : ∃ s, Lib.run Pools.step (init blank) [(.iram1, .alloc 32)] = some s ∧
      s.live .iram1 = [(0x10007000, 32)] ∧ (s.mem.pool .iram1).bit [] = true :=
    ⟨_, rfl, by decide +kernel, by decide +kernel⟩
  obtain ⟨s, hs, hl, hb⟩ := hrun
  have href := h _ (by decide +kernel) s hs .iram1 (some 0x10007040) (by simp [hl])
  have hu := (dealloc_error_iff _).mp ((s.refused_iff _ _).mp href) _ rfl (by decide)
  rw [hu [] (Nat.zero_le _) (by decide) (by decide)] at hb
  cases hb

end Pools

end Rtx
