/-
  File:      Rtx/Mem/Heap.lean
  Subject:   One pool and the books of its users: which blocks are alive.

  A `Heap` is a pool together with what its users know: the blocks handed out and not freed since,
  and the blocks freed. Between the calls the owner of a live block may write into it, also over
  the words the allocator keeps its links in while the block is free.

  `Heap.Inv` is kept by every alloc, by every dealloc that merges cleanly and by every write; it
  says that the live blocks are pairwise disjoint (`Inv.safe`), and how far a pool with nothing
  alive is from the one created (`Inv.restored_iff`).
-/
import Rtx.Mem.Alloc
import Rtx.Mem.Dealloc

namespace Rtx

open BlockTree

/-! ## 1. Heaps -/

/-- A pool, its live blocks and its freed blocks (the last one first): address and requested
    size. -/
structure Heap where
  pool : Pool
  live : List (Nat × Nat)
  freed : List (Nat × Nat)

/-- A call on the pool, or a write of its owner into a live block. -/
inductive HeapOp where
  | alloc (size : Nat)
  | dealloc (ptr : Nat)
  | write (a : Nat) (d : Dnode)

/-- The number of bytes of the block for a request. -/
def blockBytes (size : Nat) : Nat := 2 ^ blockLog2 size

/-- The pool as `k_mpool_create` makes it: the level-0 list is the pool's start alone, the other
    lists are empty and no bit is set. -/
structure Pool.Restored (c : PoolCfg) (p : Pool) : Prop where
  root : p.HoldsList 0 [c.start]
  others : ∀ l, 0 < l → l < c.maxLevels → (p.freeList l).head = none
  bits : ∀ i, p.check i = false

namespace Heap

variable (c : PoolCfg)

/-- What `k_mpool_create` leaves. -/
def created (p : Pool) : Heap := ⟨p.create c, [], []⟩

/-- The users' books after `k_mpool_alloc(size)` returned `r` and left the pool `p`. -/
def afterAlloc (h : Heap) (p : Pool) (size : Nat) (r : Option Nat) : Heap :=
  match r with
  | none => { h with pool := p }
  | some a => { h with pool := p, live := (a, size) :: h.live }

/-- The users' books after `k_mpool_dealloc(ptr)` succeeded and left the pool `p`. -/
def afterDealloc (h : Heap) (p : Pool) (ptr : Nat) : Heap :=
  ⟨p, h.live.filter (·.1 != ptr), h.live.filter (·.1 == ptr) ++ h.freed⟩

/-- Only live blocks are freed or written to. -/
def Proper (h : Heap) : HeapOp → Prop
  | .alloc _ => True
  | .dealloc ptr => ∃ x ∈ h.live, x.1 = ptr
  | .write a _ => ∃ x ∈ h.live, x.1 ≤ a ∧ a < x.1 + blockBytes x.2

/-- And a block that is freed merges cleanly. -/
def Clean (h : Heap) (op : HeapOp) : Prop :=
  h.Proper op ∧
    match op with
    | .dealloc ptr => h.pool.freesCleanly c ptr = true
    | _ => True

instance (h : Heap) (op : HeapOp) : Decidable (h.Proper op) := by
  cases op <;> unfold Proper <;> infer_instance

instance (h : Heap) (op : HeapOp) : Decidable (h.Clean c op) := by
  cases op <;> unfold Clean <;> infer_instance

/-- What the users of the pool rely on: their blocks are inside the pool and pairwise disjoint,
    and the allocator knows each as a block of the size for its request. -/
structure Safe (h : Heap) : Prop where
  inside : ∀ x ∈ h.live, c.start ≤ x.1 ∧ x.1 + blockBytes x.2 ≤ c.start + c.size
  disjoint : h.live.Pairwise fun x y =>
    x.1 + blockBytes x.2 ≤ y.1 ∨ y.1 + blockBytes y.2 ≤ x.1
  sized : ∀ x ∈ h.live, ∃ i, h.pool.findBlock (c.maxLevels - 1) ((x.1 - c.start) / minBlkSize) =
    (true, c.sizeLog2 - blockLog2 x.2, i)

/-- The node of a live block. -/
def node (x : Nat × Nat) : Path := path (c.levelFor x.2) ((x.1 - c.start) / blockBytes x.2)

/-- **The invariant of the runs.** The allocated nodes are those of the live blocks; the root's
    bit stays set until the whole pool is freed. -/
structure Inv (h : Heap) : Prop where
  addr : ∀ x ∈ h.live, c.addr (node c x) = x.1
  fits : ∀ x ∈ h.live, x.2 ≤ c.size
  nodup : (h.live.map (node c)).Nodup
  pool : PoolInv c (fun _ => false) {n | n ∈ h.live.map (node c)} h.pool
  root : h.pool.bit [] = true ↔ h.live ≠ [] ∨ ∃ x ∈ h.freed.head?, blockBytes x.2 ≠ c.size

/-! ## 2. Nodes of live blocks -/

variable {c} {h h' : Heap} {x y : Nat × Nat} {n : Path}

theorem length_node (x : Nat × Nat) : (node c x).length = c.levelFor x.2 := length_path _ _

theorem blockSize_of_level (hx : x.2 ≤ c.size) (hn : n.length = c.levelFor x.2) :
    blockSize c.sizeLog2 n = blockBytes x.2 := by
  have := PoolInv.blockLog2_le hx
  rw [blockSize, hn, PoolCfg.levelFor, blockBytes]
  congr 1
  omega

/-- An address and a request determine the node. -/
theorem node_eq (hx : x.2 ≤ c.size) (hn : n.length = c.levelFor x.2) (ha : c.addr n = x.1) :
    node c x = n := by
  have hb := blockSize_of_level hx hn
  have hi : (x.1 - c.start) / blockBytes x.2 = index n := by
    rw [← ha, PoolCfg.addr, Nat.add_sub_cancel_left, offset, hb]
    exact Nat.mul_div_cancel _ (Nat.two_pow_pos _)
  rw [node, hi, ← hn, path_index]

theorem Inv.mem_node (_ : Inv c h) (hx : x ∈ h.live) :
    node c x ∈ {n | n ∈ h.live.map (node c)} := List.mem_map_of_mem hx

/-- Live blocks with one address are one block. -/
theorem Inv.node_eq_of_addr (hI : Inv c h) (hx : x ∈ h.live) (hy : y ∈ h.live)
    (e : x.1 = y.1) : node c x = node c y := by
  by_contra hne
  have hA := hI.pool.antichain
  refine PoolCfg.addr_ne (hI.pool.depth _ (hI.mem_node hx)) (hI.pool.depth _ (hI.mem_node hy))
    (fun hs => hne (hA _ (hI.mem_node hx) _ (hI.mem_node hy) hs))
    (fun hs => hne (hA _ (hI.mem_node hy) _ (hI.mem_node hx) hs).symm) ?_
  rw [hI.addr x hx, hI.addr y hy, e]

/-- The block of a live address. -/
theorem Inv.block (hI : Inv c h) (hx : x ∈ h.live) :
    x.1 = c.start + offset c.sizeLog2 (node c x) ∧
      blockBytes x.2 = blockSize c.sizeLog2 (node c x) ∧ (node c x).length ≤ c.depth :=
  ⟨(hI.addr x hx).symm, (blockSize_of_level (hI.fits x hx) (length_node x)).symm,
    hI.pool.depth _ (hI.mem_node hx)⟩

/-- The nodes of the other live blocks. -/
theorem Inv.nodes_without (hI : Inv c h) (hx : x ∈ h.live) :
    {m | m ∈ (h.live.filter (·.1 != x.1)).map (node c)} =
      {m | m ∈ h.live.map (node c)} \ {node c x} := by
  ext m
  simp only [Set.mem_ofPred_eq, List.mem_map, List.mem_filter, bne_iff_ne, Set.mem_sdiff,
    Set.mem_singleton_iff]
  constructor
  · rintro ⟨y, ⟨hy, hne⟩, e⟩
    refine ⟨⟨y, hy, e⟩, fun e' => ?_⟩
    rw [← hI.addr y hy, e, e', hI.addr x hx] at hne
    exact hne rfl
  · rintro ⟨⟨y, hy, e⟩, hne⟩
    refine ⟨y, ⟨hy, fun e' => ?_⟩, e⟩
    exact hne (e ▸ hI.node_eq_of_addr hy hx e')

/-- The invariant gives the users what they rely on. -/
theorem Inv.safe (hI : Inv c h) : Safe c h := by
  refine ⟨fun x hx => ?_, ?_, fun x hx => ?_⟩
  · obtain ⟨h1, h2, h3⟩ := hI.block hx
    have h4 := offset_add_blockSize_le (PoolCfg.length_le h3)
    have h5 := c.size_eq
    rw [h1, h2]
    omega
  · refine (List.pairwise_map.mp hI.nodup).imp_of_mem fun {x y} hx hy hne => ?_
    obtain ⟨h1, h2, h3⟩ := hI.block hx
    obtain ⟨h4, h5, h6⟩ := hI.block hy
    have hA := hI.pool.antichain
    have h7 := apart_of_not_suffix (PoolCfg.length_le h3) (PoolCfg.length_le h6)
      (fun hs => hne (hA _ (hI.mem_node hx) _ (hI.mem_node hy) hs))
      (fun hs => hne (hA _ (hI.mem_node hy) _ (hI.mem_node hx) hs).symm)
    rw [h1, h2, h4, h5]
    omega
  · have h1 := hI.pool.findBlock_addr (hI.mem_node hx)
    rw [hI.addr x hx, length_node] at h1
    exact ⟨_, h1⟩

/-- The whole pool is the block of level 0. -/
theorem Inv.node_eq_root (hI : Inv c h) (hx : x ∈ h.live) :
    node c x = [] ↔ blockBytes x.2 = c.size := by
  have hle := PoolInv.blockLog2_le (hI.fits x hx)
  rw [← List.length_eq_zero_iff, length_node, PoolCfg.levelFor, c.size_eq, blockBytes,
    Nat.pow_right_inj (by decide)]
  omega

/-- The live addresses can be read off the pool, while something smaller than the pool is alive. -/
theorem Inv.allocatedAt_iff (hI : Inv c h) (hy : y ∈ h.live) (hsize : blockBytes y.2 ≠ c.size)
    (a : Nat) : h.pool.allocatedAt c a = true ↔ ∃ x ∈ h.live, x.1 = a := by
  have hne : ∃ n ∈ {n | n ∈ h.live.map (node c)}, n ≠ [] :=
    ⟨node c y, hI.mem_node hy, fun e => hsize ((hI.node_eq_root hy).mp e)⟩
  rw [hI.pool.allocatedAt_iff hne]
  constructor
  · rintro ⟨n, hn, rfl⟩
    obtain ⟨x, hx, rfl⟩ := List.mem_map.mp hn
    exact ⟨x, hx, (hI.addr x hx).symm⟩
  · rintro ⟨x, hx, rfl⟩
    exact ⟨node c x, hI.mem_node hx, hI.addr x hx⟩

/-! ## 3. The steps keep the invariant -/

/-- A pool just created, with nothing handed out. -/
theorem Inv.created (c : PoolCfg) (p : Pool) : Inv c (created c p) := by
  have hA : {n | n ∈ ([] : List (Nat × Nat)).map (node c)} = ∅ := by simp
  refine ⟨by simp [Heap.created], by simp [Heap.created], by simp [Heap.created], ?_, ?_⟩
  · exact hA.symm ▸ PoolInv.create c p
  · rw [Pool.bit, Heap.created, Pool.check_created]
    simp

/-- What `k_mpool_alloc` does to a pool that keeps the invariant: it returns, and either changes
    nothing or hands out a block for which the invariant holds. -/
theorem Inv.alloc (hI : Inv c h) (size : Nat) :
    (∃ e, h.pool.alloc c size = some (.error e)) ∨
      ∃ p a, h.pool.alloc c size = some (.ok (p, a)) ∧ Inv c (h.afterAlloc p size (some a)) := by
  by_cases h0 : size = 0
  · refine Or.inl ⟨none, ?_⟩
    rw [Pool.alloc, if_pos h0]
  by_cases hs : c.size < size
  · refine Or.inl ⟨some .ENOMEM, ?_⟩
    rw [Pool.alloc, if_neg h0, if_pos hs]
  rcases hI.pool.alloc_spec h0 (Nat.le_of_not_lt hs) with ⟨h1, -⟩ | ⟨n, p, h1, hn, hnA, h2, -⟩
  · exact Or.inl ⟨_, h1⟩
  · refine Or.inr ⟨p, c.addr n, h1, ?_⟩
    have hnode : node c (c.addr n, size) = n := node_eq (Nat.le_of_not_lt hs) hn rfl
    have hset : {m | m ∈ ((c.addr n, size) :: h.live).map (node c)} =
        insert n {m | m ∈ h.live.map (node c)} := by
      ext m
      rw [List.map_cons, hnode]
      simp
    refine ⟨fun x hx => ?_, fun x hx => ?_, ?_, ?_, ?_⟩
    · rcases List.mem_cons.mp hx with rfl | hx
      · rw [hnode]
      · exact hI.addr x hx
    · rcases List.mem_cons.mp hx with rfl | hx
      · exact Nat.le_of_not_lt hs
      · exact hI.fits x hx
    · rw [Heap.afterAlloc, List.map_cons, hnode, List.nodup_cons]
      exact ⟨hnA, hI.nodup⟩
    · rw [Heap.afterAlloc, hset]
      exact h2
    · refine ⟨fun _ => Or.inl (by simp [Heap.afterAlloc]), fun _ => ?_⟩
      exact h2.rep.root ⟨n, Set.mem_insert _ _, List.nil_suffix⟩

/-- What `k_mpool_dealloc` does for a live block that merges cleanly: it succeeds, and the
    invariant holds without the block. -/
theorem Inv.dealloc (hI : Inv c h) (hx : x ∈ h.live)
    (hclean : h.pool.freesCleanly c x.1 = true) :
    ∃ p, h.pool.dealloc c (some x.1) = some (.ok p) ∧ Inv c (h.afterDealloc p x.1) := by
  rw [← hI.addr x hx] at hclean
  obtain ⟨p, h1, h2, h3⟩ := hI.pool.dealloc_spec (hI.mem_node hx) hclean
  rw [hI.addr x hx] at h1
  refine ⟨p, h1, ?_⟩
  have hsub : ∀ y ∈ h.live.filter (·.1 != x.1), y ∈ h.live := fun y hy => (List.mem_filter.mp hy).1
  refine ⟨fun y hy => hI.addr y (hsub y hy), fun y hy => hI.fits y (hsub y hy), ?_, ?_, ?_⟩
  · exact hI.nodup.sublist (List.filter_sublist.map _)
  · rw [Heap.afterDealloc, hI.nodes_without hx]
    exact h2
  · have hbit : h.pool.bit [] = true := hI.root.mpr (Or.inl (List.ne_nil_of_mem hx))
    obtain ⟨y, hy, hyl, hye⟩ : ∃ y, (h.live.filter (·.1 == x.1) ++ h.freed).head? = some y ∧
        y ∈ h.live ∧ y.1 = x.1 := by
      have hxf : x ∈ h.live.filter (·.1 == x.1) := List.mem_filter.mpr ⟨hx, by simp⟩
      cases hf : h.live.filter (·.1 == x.1) with
      | nil => rw [hf] at hxf; exact absurd hxf List.not_mem_nil
      | cons y ys =>
          have := List.mem_filter.mp (hf ▸ List.mem_cons_self : y ∈ h.live.filter (·.1 == x.1))
          exact ⟨y, rfl, this.1, by simpa using this.2⟩
    have hroot := hI.node_eq_root hyl
    rw [hI.node_eq_of_addr hyl hx hye] at hroot
    simp only [Heap.afterDealloc, hy, h3, hbit, Bool.and_true, Bool.not_eq_true',
      decide_eq_false_iff_not, hroot, Option.mem_def, Option.some.injEq, exists_eq_left']
    refine ⟨Or.inr, fun hor => hor.elim (fun hne he => hne ?_) id⟩
    -- nothing else is alive when the block is the whole pool
    refine List.eq_nil_iff_forall_not_mem.mpr fun z hz => ?_
    obtain ⟨hzl, hz⟩ := List.mem_filter.mp hz
    have hn : node c x = node c z := by
      refine hI.pool.antichain _ (hI.mem_node hx) _ (hI.mem_node hzl) ?_
      rw [hroot.mpr he]
      exact List.nil_suffix
    rw [← hI.addr z hzl, ← hn, hI.addr x hx] at hz
    simp at hz

/-- Only the nodes of free blocks are the allocator's. -/
theorem Inv.update (hI : Inv c h) {a : Nat}
    (ha : ∀ n, n.length ≤ c.depth → Vacant {n | n ∈ h.live.map (node c)} n → c.addr n ≠ a)
    (d : Dnode) :
    Inv c { h with pool := { h.pool with mem := Function.update h.pool.mem a d } } := by
  have hp := hI.pool
  refine ⟨hI.addr, hI.fits, hI.nodup, ⟨hp.antichain, hp.depth, ?_⟩, hI.root⟩
  refine ⟨hp.rep.bit, hp.rep.root, hp.rep.beyond, hp.rep.apart, fun l hl => ?_⟩
  obtain ⟨ns, h1, h2⟩ := hp.rep.lists l hl
  refine ⟨ns, h1.congr rfl (fun z hz => ?_), h2⟩
  obtain ⟨n, hn, rfl⟩ := List.mem_map.mp hz
  obtain ⟨hnl, hv⟩ := (h2 n).mp hn
  exact Function.update_of_ne (ha n (hnl ▸ hl) hv) _ _

/-- Writing into a live block touches no free node. -/
theorem Inv.write (hI : Inv c h) (hx : x ∈ h.live) {a : Nat} (ha : x.1 ≤ a)
    (ha' : a < x.1 + blockBytes x.2) (d : Dnode) :
    Inv c { h with pool := { h.pool with mem := Function.update h.pool.mem a d } } := by
  obtain ⟨h1, h2, h3⟩ := hI.block hx
  apply hI.update _ d
  intro n hn hv e
  obtain ⟨h4, h5⟩ := hv.apart hI.pool.antichain (hI.mem_node hx)
  have h6 := apart_of_not_suffix (PoolCfg.length_le h3) (PoolCfg.length_le hn) h4 h5
  have h7 := blockSize_pos c.sizeLog2 n
  rw [PoolCfg.addr] at e
  omega

/-- **A pool with nothing alive is as it was created exactly when the root's bit is clear**:
    nothing was freed so far, or the last block freed was the whole pool. -/
theorem Inv.restored_iff (hI : Inv c h) (hl : h.live = []) :
    h.pool.Restored c ↔ ∀ x ∈ h.freed.head?, blockBytes x.2 = c.size := by
  have hA : {n | n ∈ h.live.map (node c)} = ∅ := by simp [hl]
  have hp := hA ▸ hI.pool
  have hroot : (h.pool.bit [] = false) ↔ ∀ x ∈ h.freed.head?, blockBytes x.2 = c.size := by
    rw [← Bool.not_eq_true, hI.root, hl]
    simp
  rw [← hroot]
  refine ⟨fun hr => hr.bits _, fun hb => ⟨?_, fun l h0 hlt => ?_, fun i => ?_⟩⟩
  · obtain ⟨ns, h1, h2⟩ := hp.rep.lists 0 (Nat.zero_le _)
    have hns : ns = [[]] := by
      have hmem : ∀ n, n ∈ ns ↔ n = [] := fun n => by
        rw [h2, vacant_empty_iff, List.length_eq_zero_iff, and_self]
      have hnd := List.Nodup.of_map _ h1.nodup
      cases ns with
      | nil => exact absurd ((hmem []).mpr rfl) List.not_mem_nil
      | cons n ns =>
          obtain rfl := (hmem n).mp List.mem_cons_self
          cases ns with
          | nil => rfl
          | cons m ns =>
              obtain rfl := (hmem m).mp (by simp)
              simp at hnd
    rw [hns, List.map_singleton, PoolCfg.addr_root] at h1
    exact h1
  · refine (hp.rep.head_none_iff ?_).mpr fun n hn hv => ?_
    · rw [PoolCfg.depth]
      omega
    · rw [vacant_empty_iff] at hv
      rw [hv] at hn
      simp at hn
      omega
  · rcases Nat.lt_or_ge i (2 ^ (c.depth + 1) - 1) with hlt | hge
    · obtain ⟨n, hn, rfl⟩ := exists_bitIndex (by have := c.depth_lt; omega) hlt
      by_cases h0 : n = []
      · subst h0
        exact hb
      · have := (hp.bit_iff h0 hn).not.mpr (not_marked_empty n)
        exact Bool.eq_false_iff.mpr this
    · exact hp.rep.beyond i hge

end Heap

end Rtx
