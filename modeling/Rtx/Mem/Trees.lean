/-
  File:      Rtx/Mem/Trees.lean
  Subject:   What alloc and dealloc do to the tree of free, allocated and split blocks.

  `Represents c T p`: the bits and the lists of the pool `p` are those of the tree `T`. It is the
  pool's invariant (Rep.lean) with the tree written out (`represents_iff`).

  * `Mem.alloc_exact`: alloc cuts the block from the head of the list of the smallest sufficient
    size, or fails when there is none.
  * `Mem.dealloc_merges`: dealloc finds the block and merges it up to the smallest node whose
    sibling is not free. What it leaves in the lists on the way is not said: a buddy that is the
    last of several nodes of its list stays there.
  * `Mem.dealloc_alloc`: freeing the block just handed out restores every list and every bit but
    the root's. Each buddy on the way is alone in its list.
-/
import Rtx.Lib.Shape
import Rtx.Mem.Pools

namespace Rtx

open BlockTree

/-! ## 1. Pools and trees -/

/-- The pool `p` represents the tree `T`: a bit is set exactly for the allocated and the split
    nodes (the root's also may be when nothing is allocated), and the free list of each level is
    the doubly linked list of the free nodes of the level, each once. -/
structure Represents (c : PoolCfg) (T : Shape) (p : Pool) : Prop where
  merged : T.Merged
  height : T.height ≤ c.depth
  bit : ∀ n, n ≠ [] → n.length ≤ c.depth →
    (p.bit n = true ↔ T.sub n = some .allocated ∨ ∃ l r, T.sub n = some (.split l r))
  root : T ≠ .free → p.bit [] = true
  list : ∀ l ≤ c.depth, ∃ ns : List Path, p.HoldsList l (ns.map c.addr) ∧
    ∀ n, n ∈ ns ↔ n.length = l ∧ T.sub n = some .free

namespace Represents

variable {c : PoolCfg} {X : Nat → Bool} {A : Set Path} {T : Shape} {p q : Pool} {n : Path}

theorem ne_free (hT : T.Merged) (h : Marked T.allocs []) : T ≠ .free := by
  intro e
  have := (Shape.marked_iff hT).mp h
  rw [e] at this
  simp [Shape.sub] at this

/-- The tree's allocated nodes are those of the pool's invariant. -/
theorem inv (h : Represents c T p) : PoolInv c p.check T.allocs p where
  antichain := T.antichain
  depth a ha := by
    have := Shape.sub_height (show T.sub a = some .allocated from ha)
    have := h.height
    omega
  rep := by
    refine ⟨fun n h0 hn => (h.bit n h0 hn).trans (Shape.marked_iff h.merged).symm,
      fun hm => h.root (ne_free h.merged hm), fun _ _ => rfl,
      fun m n hm hn hs => hm.eq_of_suffix hn hs, fun l hl => ?_⟩
    obtain ⟨ns, h1, h2⟩ := h.list l hl
    exact ⟨ns, h1, fun n => (h2 n).trans (and_congr_right fun _ =>
      (Shape.vacant_iff h.merged).symm)⟩

/-- A pool that keeps the invariant represents a tree with the same allocated nodes. -/
theorem of_inv (h : PoolInv c X A p) : ∃ T, Represents c T p ∧ T.allocs = A := by
  obtain ⟨T, hT, hd, rfl⟩ := Shape.exists_shape h.antichain h.depth
  refine ⟨T, ⟨hT, hd, fun n h0 hn => (h.rep.bit n h0 hn).trans (Shape.marked_iff hT),
    fun hne => ?_, fun l hl => ?_⟩, rfl⟩
  · obtain ⟨q, hq⟩ := hT.exists_alloc hne
    exact h.rep.root ⟨q, hq, List.nil_suffix⟩
  · obtain ⟨ns, h1, h2⟩ := h.rep.lists l hl
    exact ⟨ns, h1, fun n => (h2 n).trans (and_congr_right fun _ => Shape.vacant_iff hT)⟩

/-- **A pool represents a tree exactly when it keeps the invariant.** -/
theorem represents_iff : (∃ T, Represents c T p ∧ T.allocs = A) ↔ PoolInv c p.check A p := by
  constructor
  · rintro ⟨T, h, rfl⟩
    exact h.inv
  · exact of_inv

/-- What `k_mpool_create` makes represents the free tree. -/
theorem created (c : PoolCfg) (p : Pool) : Represents c .free (p.create c) := by
  obtain ⟨T, hT, hA⟩ := of_inv (PoolInv.create c p)
  have e : T = .free := by
    by_contra hne
    obtain ⟨q, hq⟩ := hT.merged.exists_alloc hne
    have hm : q ∈ T.allocs := hq
    rw [hA] at hm
    exact hm
  exact e ▸ hT

/-- A request fits a block exactly when the block's level is not below the request's. -/
theorem blockBytes_le_iff {size : Nat} (hs : size ≤ c.size) (hn : n.length ≤ c.depth) :
    blockBytes size ≤ blockSize c.sizeLog2 n ↔ n.length ≤ c.levelFor size := by
  have h1 := PoolInv.blockLog2_le hs
  have h2 := PoolCfg.length_le hn
  rw [blockBytes, blockSize, Nat.pow_le_pow_iff_right (by decide), PoolCfg.levelFor]
  omega

theorem free_depth (h : Represents c T p) (hn : T.sub n = some .free) : n.length ≤ c.depth := by
  have := Shape.sub_height hn
  have := h.height
  omega

end Represents

/-! ## 2. Alloc -/

/-- The smallest free block a request fits into, first in its list. -/
structure Smallest (c : PoolCfg) (T : Shape) (p : Pool) (size : Nat) (g : Path) : Prop where
  free : T.sub g = some .free
  head : (p.freeList g.length).head = some (c.addr g)
  fits : blockBytes size ≤ blockSize c.sizeLog2 g
  least : ∀ n, T.sub n = some .free → blockBytes size ≤ blockSize c.sizeLog2 n →
    blockSize c.sizeLog2 g ≤ blockSize c.sizeLog2 n

theorem Represents.smallest {c : PoolCfg} {T : Shape} {p : Pool} (h : Represents c T p) {size : Nat}
    (hs : size ≤ c.size) {g : Path} (hg : Source c T.allocs p (c.levelFor size) g) :
    Smallest c T p size g := by
  have hf := (Shape.vacant_iff h.merged).mp hg.vacant
  refine ⟨hf, hg.head, (blockBytes_le_iff hs (h.free_depth hf)).mpr hg.level, fun n hn hle => ?_⟩
  have hl := (blockBytes_le_iff hs (h.free_depth hn)).mp hle
  have := hg.deepest n ((Shape.vacant_iff h.merged).mpr hn) hl
  exact Nat.pow_le_pow_right (by decide) (by omega)

/-- **`k_mpool_alloc` is exact.** In a pool that represents a tree, a request that no free block is
    large enough for fails with `ENOMEM` and changes nothing else; any other is served by a block
    of the size for the request, aligned to it, inside the head of the list of the smallest
    sufficient size, and the pool represents a tree with just this block allocated in addition. -/
theorem Mem.alloc_exact (m : Mem) (i : PoolId) (T : Shape) (size : Nat)
    (hT : Represents i.cfg T (m.pool i)) (h0 : 1 ≤ size) (hs : size ≤ i.cfg.size) :
    ((¬ ∃ n, T.sub n = some .free ∧ blockBytes size ≤ blockSize i.cfg.sizeLog2 n) →
      kMpoolAlloc m i.mpid size = some ({ m with errno := .ENOMEM }, none)) ∧
    ((∃ n, T.sub n = some .free ∧ blockBytes size ≤ blockSize i.cfg.sizeLog2 n) →
      ∃ p n g U, kMpoolAlloc m i.mpid size = some (m.setPool i p, some (i.cfg.addr n)) ∧
        blockSize i.cfg.sizeLog2 n = blockBytes size ∧
        blockBytes size ∣ i.cfg.addr n - i.cfg.start ∧
        Smallest i.cfg T (m.pool i) size g ∧ i.cfg.addr g ≤ i.cfg.addr n ∧
        i.cfg.addr n + blockBytes size ≤ i.cfg.addr g + blockSize i.cfg.sizeLog2 g ∧
        n ∉ T.allocs ∧ U.allocs = insert n T.allocs ∧ Represents i.cfg U p) := by
  rw [Pools.kMpoolAlloc_eq]
  rcases hT.inv.alloc_spec (Nat.ne_of_gt h0) hs with
    ⟨h1, hno⟩ | ⟨n, p, h1, hn, hnA, hp, g, hg, hng⟩
  · -- nothing of the level or above is free
    have hnone : ¬ ∃ n, T.sub n = some .free ∧
        blockBytes size ≤ blockSize i.cfg.sizeLog2 n := by
      rintro ⟨n, hf, hle⟩
      exact hno n ((Represents.blockBytes_le_iff hs (hT.free_depth hf)).mp hle)
        ((Shape.vacant_iff hT.merged).mpr hf)
    rw [show (m.pool i).alloc i.cfg size = _ from h1]
    exact ⟨fun _ => rfl, fun h => absurd h hnone⟩
  · have hsm := hT.smallest hs hg
    rw [show (m.pool i).alloc i.cfg size = _ from h1]
    refine ⟨fun h => absurd ⟨g, hsm.free, hsm.fits⟩ h, fun _ => ?_⟩
    obtain ⟨U, hU, hUA⟩ := Represents.of_inv hp
    have hb : blockSize i.cfg.sizeLog2 n = blockBytes size :=
      Heap.blockSize_of_level (x := (0, size)) hs hn
    have hd := hp.depth n (Set.mem_insert n _)
    have hsub := block_subset (S := i.cfg.sizeLog2) (PoolCfg.length_le hd)
      (hng ▸ suffix_leftmost _ g : g <:+ n)
    refine ⟨p, n, g, U, rfl, hb, ?_, hsm, ?_, ?_, hnA, hUA, hU⟩
    · rw [PoolCfg.addr, Nat.add_sub_cancel_left, offset, hb]
      exact Nat.dvd_mul_left _ _
    · exact Nat.add_le_add_left hsub.1 _
    · rw [PoolCfg.addr, PoolCfg.addr, ← hb]
      have := hsub.2
      omega

theorem Mem.alloc_exact_created : ∃ p n U,
    kMpoolAlloc (Pools.init Pools.blank).mem PoolId.iram1.mpid 20 =
      some ((Pools.init Pools.blank).mem.setPool .iram1 p, some (iram1.addr n)) ∧
    U.allocs = insert n Shape.free.allocs ∧ Represents iram1 U p := by
  obtain ⟨p, n, g, U, h1, -, -, -, -, -, -, h2, h3⟩ :=
    (Mem.alloc_exact (Pools.init Pools.blank).mem .iram1 .free 20 (Represents.created iram1 _)
      (by decide) (by decide)).2 ⟨[], rfl, by decide⟩
  exact ⟨p, n, U, h1, h2, h3⟩

/-! ## 3. Dealloc -/

/-- `m` is the smallest node from `n` upwards that is the root or whose sibling is not free. -/
structure MergeTop (T : Shape) (n m : Path) : Prop where
  above : m <:+ n
  stop : ∀ b k, m = b :: k → T.sub ((!b) :: k) ≠ some .free
  least : ∀ b k, (b :: k) <:+ n → m <:+ k → T.sub ((!b) :: k) = some .free

/-- The merging loop goes up while the sibling is free (`F`), whatever `pop_block` does to the
    lists of the levels it leaves. -/
theorem Shows.coalesce_top {c : PoolCfg} {X : Nat → Bool} {B F : Path → Prop}
    {Ls : Nat → List Path} {p : Pool} {n : Path} (h : Shows c X B Ls p) (hd : n.length ≤ c.depth)
    (hB : ∀ b k, (b :: k) <:+ n → (B ((!b) :: k) ↔ ¬ F ((!b) :: k)))
    (hF : ∀ b k, (b :: k) <:+ n → F ((!b) :: k) → (!b) :: k ∈ Ls (k.length + 1)) :
    ∃ q m, Pool.coalesce c p (c.addr n) n.length (index n) = some (q, c.addr m, m.length) ∧
      m <:+ n ∧ (∀ b k, m = b :: k → ¬ F ((!b) :: k)) ∧
      ∀ b k, (b :: k) <:+ n → m <:+ k → F ((!b) :: k) := by
  induction n generalizing B Ls p with
  | nil =>
      refine ⟨p, [], rfl, List.nil_suffix, fun b k e => absurd e (by simp), fun b k hk => ?_⟩
      simp at hk
  | cons b n ih =>
      have h1 := h.unmark hd
      have hd' : ((!b) :: n).length ≤ c.depth := hd
      have hsib := (h1.bit ((!b) :: n) (by simp) hd').trans (and_iff_left (sibling_ne b n))
      have hself := List.suffix_refl (b :: n)
      by_cases hs : F ((!b) :: n)
      · -- the sibling leaves its list, or stays as the last of several
        obtain ⟨q', ns, h2, h3⟩ := h1.popBlock_any hd' (hF b n hself hs)
        have hlen : ∀ {b' k}, (b' :: k) <:+ n → k.length + 1 ≤ n.length := fun hk => hk.length_le
        obtain ⟨r, m, h4, h5, h6, h7⟩ := ih h3 (Nat.le_of_succ_le hd)
          (fun b' k hk => by
            rw [← hB b' k (hk.trans (List.suffix_cons b n))]
            refine and_iff_left fun e => ?_
            have := congrArg List.length e
            have := hlen hk
            simp only [List.length_cons] at *
            omega)
          (fun b' k hk hf => by
            rw [Function.update_of_ne (by have := hlen hk; rw [List.length_cons]; omega)]
            exact hF b' k (hk.trans (List.suffix_cons b n)) hf)
        refine ⟨r, m, ?_, h5.trans (List.suffix_cons b n), h6, fun b' k hk hm => ?_⟩
        · rw [PoolInv.coalesce_free hd (fun hx => (hB b n hself).mp (hsib.mp hx) hs) h2]
          exact h4
        · rcases List.suffix_cons_iff.mp hk with e | hk
          · obtain ⟨rfl, rfl⟩ := List.cons.inj e
            exact hs
          · exact h7 b' k hk hm
      · -- the sibling is in use
        refine ⟨_, b :: n, PoolInv.coalesce_used (hsib.mpr ((hB b n hself).mpr hs)), hself,
          fun b' k e => ?_, fun b' k hk hm => ?_⟩
        · obtain ⟨rfl, rfl⟩ := List.cons.inj e
          exact hs
        · have := hk.length_le
          have := hm.length_le
          simp only [List.length_cons] at *
          omega

/-- **`k_mpool_dealloc` finds the block and the merge size.** In a pool that represents a tree,
    dealloc of an allocated block returns `RTX_OK`, its search ends at the level and the index of
    the block, and it puts at the head of a list the smallest node from the block upwards that is
    the root or whose sibling is not free. -/
theorem Mem.dealloc_merges (m : Mem) (i : PoolId) (T : Shape) (n : Path)
    (hT : Represents i.cfg T (m.pool i)) (hn : T.sub n = some .allocated) :
    (m.pool i).findBlock (i.cfg.maxLevels - 1) ((i.cfg.addr n - i.cfg.start) / minBlkSize) =
      (true, n.length, index n) ∧
    ∃ q top, kMpoolDealloc m i.mpid (some (i.cfg.addr n)) = some (m.setPool i q, rtxOk) ∧
      MergeTop T n top ∧ (q.freeList top.length).head = some (i.cfg.addr top) ∧
      (n ≠ [] → ∃ p, Pool.coalesce i.cfg (m.pool i) (i.cfg.addr n) n.length (index n) =
        some (p, i.cfg.addr top, top.length) ∧ q = p.putFreed (i.cfg.addr top) top.length) := by
  have hI := hT.inv
  have hnA : n ∈ T.allocs := hn
  have hfind := hI.findBlock_addr hnA
  refine ⟨hfind, ?_⟩
  rw [Pools.kMpoolDealloc_eq]
  cases n with
  | nil =>
      rw [hI.dealloc_root hnA]
      refine ⟨_, [], rfl, ⟨List.suffix_refl [], fun b k e => absurd e (by simp),
        fun b k hk => absurd hk (by simp)⟩, ?_, fun h => absurd rfl h⟩
      rw [PoolCfg.addr_root]
      simp [Pool.putRoot, Pool.setHead_head]
  | cons b n =>
      obtain ⟨Ls, hs, hLs⟩ := hI.rep.shows
      have hd := hI.depth _ hnA
      -- the sibling of a node over the block is marked or vacant
      have hsib : ∀ b' k, (b' :: k) <:+ b :: n →
          (Marked T.allocs ((!b') :: k) ↔ ¬ T.sub ((!b') :: k) = some .free) := fun b' k hk => by
        rw [← Shape.vacant_iff hT.merged]
        refine ⟨fun hm hv => hv.not_marked hm, fun hv => ?_⟩
        by_contra hm
        exact hv (vacant_sibling ((marked_of_mem hnA).of_suffix hk) hm)
      obtain ⟨q, top, h1, h2, h3, h4⟩ := hs.coalesce_top
        (F := fun m => T.sub m = some .free) hd hsib (fun b' k hk hf => by
          refine (hLs _ ?_).mpr ((Shape.vacant_iff hT.merged).mpr hf)
          exact hk.length_le.trans hd)
      rw [hI.dealloc_node hnA, h1]
      refine ⟨_, top, rfl, ⟨h2, h3, h4⟩, ?_, fun _ => ⟨q, rfl, rfl⟩⟩
      rw [Pool.putFreed, Pool.setHead_head, if_pos rfl]

/-- A pool just created serves a first request. -/
theorem Represents.first (m : Mem) (i : PoolId) (p : Pool) (hm : m.pool i = p.create i.cfg)
    (size : Nat) (h0 : size ≠ 0) (hs : size ≤ i.cfg.size) :
    ∃ q n T, kMpoolAlloc m i.mpid size = some (m.setPool i q, some (i.cfg.addr n)) ∧
      T.sub n = some .allocated ∧ Represents i.cfg T q := by
  rw [Pools.kMpoolAlloc_eq, hm]
  rcases (PoolInv.create i.cfg p).alloc_spec h0 hs with ⟨-, hno⟩ | ⟨n, q, h1, -, -, hq, -⟩
  · exact absurd (vacant_empty_iff.mpr rfl) (hno [] (Nat.zero_le _))
  · obtain ⟨T, hT, hA⟩ := Represents.of_inv hq
    have hn : n ∈ T.allocs := hA ▸ Set.mem_insert n _
    rw [h1]
    exact ⟨q, n, T, rfl, hn, hT⟩

theorem Mem.dealloc_merges_created : ∃ m n T q top,
    kMpoolAlloc (Pools.init Pools.blank).mem PoolId.iram1.mpid 20 = some (m, some (iram1.addr n)) ∧
    kMpoolDealloc m PoolId.iram1.mpid (some (iram1.addr n)) = some (m.setPool .iram1 q, rtxOk) ∧
    MergeTop T n top ∧ (q.freeList top.length).head = some (iram1.addr top) := by
  obtain ⟨p, n, T, h1, h2, h3⟩ := Represents.first (Pools.init Pools.blank).mem .iram1 _ rfl
    20 (by decide) (by decide)
  obtain ⟨-, q, top, h4, h5, h6, -⟩ := Mem.dealloc_merges
    ((Pools.init Pools.blank).mem.setPool .iram1 p) .iram1 T n h3 h2
  exact ⟨_, n, T, q, top, h1, h4, h5, h6⟩

/-! ## 4. Dealloc undoes alloc -/

namespace Shows

variable {c : PoolCfg} {X : Nat → Bool} {B B' : Path → Prop} {Ls Ls' : Nat → List Path}
  {p q : Pool} {n g : Path}

theorem congr (h : Shows c X B Ls p) (hB : ∀ m, m ≠ [] → (B' m ↔ B m)) (hB0 : B' [] → B [])
    (hL : ∀ l, Ls' l = Ls l) : Shows c X B' Ls' p := by
  obtain rfl : Ls' = Ls := funext hL
  exact ⟨fun m h0 hm => (h.bit m h0 hm).trans (hB m h0).symm, fun hb => h.root (hB0 hb),
    h.beyond, h.level, h.apart, h.list⟩

/-- Two pools that show the same have the same lists, and the same bits but for the root's. -/
theorem same (h : Shows c X B Ls p) (h' : Shows c X B Ls q) :
    (∀ l ≤ c.depth, ∀ zs, p.HoldsList l zs → q.HoldsList l zs) ∧
      ∀ i, i ≠ 0 → q.check i = p.check i := by
  constructor
  · intro l hl zs hz
    have h1 := h.list l hl
    have e := h1.linked.unique hz.linked (h1.head.symm.trans hz.head)
    exact e ▸ h'.list l hl
  · intro i hi
    rcases Nat.lt_or_ge i (2 ^ (c.depth + 1) - 1) with hlt | hge
    · obtain ⟨n, hn, rfl⟩ := exists_bitIndex (by have := c.depth_lt; omega) hlt
      have h0 : n ≠ [] := fun e => hi (by rw [e]; rfl)
      exact Bool.eq_iff_iff.mpr ((h'.bit n h0 hn).trans (h.bit n h0 hn).symm)
    · rw [h'.beyond i hge, h.beyond i hge]

/-- Splitting the taken node `n` down `k` levels and merging the block handed out back up: the
    merging loop arrives at `n` in a pool that shows what the one did from which `n` was taken. -/
theorem splitDown_coalesce (k : Nat) (hd : n.length + k ≤ c.depth)
    (htake : p.takeHead c n.length (2 ^ (c.sizeLog2 - n.length)) = some (q, c.addr n))
    (h : Shows c X B Ls q) (hap : ∀ l ≤ c.depth, ∀ m ∈ Ls l, ¬ m <:+ n ∧ ¬ n <:+ m)
    (hno : ∀ l, n.length < l → l ≤ n.length + k → Ls l = [])
    (hB : ∀ m, n <:+ m → m ≠ n → ¬ B m) :
    ∃ p' q' r, Pool.splitDown c k p n.length = some p' ∧
      p'.takeHead c (n.length + k) (2 ^ (c.sizeLog2 - (n.length + k))) =
        some (q', c.addr (leftmost k n)) ∧
      Pool.coalesce c q' (c.addr (leftmost k n)) (leftmost k n).length (index (leftmost k n)) =
        Pool.coalesce c r (c.addr n) n.length (index n) ∧ Shows c X B Ls r := by
  induction k generalizing p q n B Ls with
  | zero => exact ⟨p, q, q, rfl, htake, rfl, h⟩
  | succ k ih =>
      have hnd : n.length < c.depth := by omega
      have hch : (false :: n).length ≤ c.depth := hnd
      have hhalves := h.putHalves hnd hap
      obtain ⟨q₁, h1, h2⟩ := hhalves.takeHead (l := n.length + 1) hnd (Function.update_self _ _ _)
      rw [Function.update_idem] at h2
      -- the left half is split further and comes back, then the right half leaves its list
      have hlen : ∀ {m : Path}, (false :: n) <:+ m → n <:+ m ∧ m ≠ n := fun {m} hm => by
        refine ⟨(List.suffix_cons _ n).trans hm, fun e => not_cons_suffix false n (e ▸ hm)⟩
      obtain ⟨p', q', r, h3, h4, h5, h6⟩ := ih (n := false :: n) (B := fun m => B m ∨ m = false :: n)
        (by rw [List.length_cons]; omega) h1 h2
        (fun l hl m hm => by
          rcases mem_update hm with ⟨rfl, hm'⟩ | ⟨hne, hm'⟩
          · obtain rfl := List.mem_singleton.mp hm'
            exact ⟨fun hs => by simpa using hs.eq_of_length rfl,
              fun hs => by simpa using hs.eq_of_length rfl⟩
          · have hml := h.level l hl m hm'
            refine ⟨fun hs => ?_, fun hs => (hap l hl m hm').2 (hlen hs).1⟩
            rcases List.suffix_cons_iff.mp hs with rfl | hs
            · exact hne hml.symm
            · exact (hap l hl m hm').1 hs)
        (fun l h1 h2 => by
          rw [List.length_cons] at h1 h2
          rw [Function.update_of_ne (by omega)]
          exact hno l (by omega) (by omega))
        (fun m hm hne hor => hor.elim (hB m (hlen hm).1 (hlen hm).2) hne)
      have e : leftmost k (false :: n) = leftmost (k + 1) n := by
        rw [leftmost, leftmost, List.replicate_succ', List.append_assoc]
        rfl
      have el : (false :: n).length + k = n.length + (k + 1) := by rw [List.length_cons]; omega
      rw [e] at h4 h5
      rw [el] at h4
      have hnB : ¬ B (false :: n) := hB _ (hlen (List.suffix_refl _)).1 (hlen (List.suffix_refl _)).2
      have hun := h6.unmark hch
      have hpair : Function.update Ls (n.length + 1) [true :: n] (true :: n).length =
          [] ++ (true :: n) :: [] := Function.update_self ..
      obtain ⟨r', h7, h8, -⟩ := hun.popBlock (l := (true :: n).length) hnd hpair (Or.inl rfl)
      have hsib : ¬ (r.unmark (bitIndex (false :: n).length (index (false :: n)))).bit
          ((!false) :: n) = true := by
        rw [hun.bit ((!false) :: n) (by simp) hch]
        rintro ⟨hb | hb, -⟩
        · exact hB _ (List.suffix_cons _ n) (fun e => by simpa using congrArg List.length e) hb
        · simp at hb
      refine ⟨p', q', r', ?_, h4, ?_, h8.congr (fun m _ => ?_) ?_ fun l => ?_⟩
      · have hp2 : power2 (c.sizeLog2 - n.length) = 2 ^ (c.sizeLog2 - n.length) :=
          PoolCfg.power2_level n
        unfold Pool.splitDown
        simp only [hp2, htake, Option.bind_eq_bind, Option.bind_some]
        exact h3
      · rw [h5, PoolInv.coalesce_free hch hsib h7]
      · exact ⟨fun hb => ⟨Or.inl hb, fun e => hnB (e ▸ hb)⟩, fun hb => hb.1.resolve_right hb.2⟩
      · exact fun hb => ⟨Or.inl hb, by simp⟩
      · rw [List.length_cons, Function.update_idem, List.nil_append]
        by_cases e : l = n.length + 1
        · rw [e, Function.update_self]
          exact hno _ (by omega) (by omega)
        · rw [Function.update_of_ne e]

end Shows

/-- Dealloc of the block just handed out restores what the pool shows. -/
theorem PoolInv.undo_alloc {c : PoolCfg} {X : Nat → Bool} {A : Set Path} {p q : Pool}
    {Ls : Nat → List Path} {size a : Nat} (h : PoolInv c X A p) (hs : Shows c X (Marked A) Ls p)
    (hLs : ∀ n, n.length ≤ c.depth → (n ∈ Ls n.length ↔ Vacant A n)) (h0 : size ≠ 0)
    (hsz : size ≤ c.size) (halloc : p.alloc c size = some (.ok (q, a))) :
    ∃ r, q.dealloc c (some a) = some (.ok r) ∧ Shows c X (Marked A) Ls r := by
  have hld := levelFor_le c size
  rcases h.alloc_spec h0 hsz with ⟨h1, -⟩ | ⟨n, q', h1, hn, -, hq, g, hg, hng⟩
  · rw [h1] at halloc
    cases halloc
  rw [h1] at halloc
  cases halloc
  have hgd : g.length ≤ c.depth := hg.level.trans hld
  have hgL := (hLs g hgd).mpr hg.vacant
  have hvac : ∀ l ≤ c.depth, ∀ m ∈ Ls l, m.length = l ∧ Vacant A m := fun l hl m hm => by
    have hml := hs.level l hl m hm
    subst hml
    exact ⟨rfl, (hLs m hl).mp hm⟩
  -- the source is the first of its list
  obtain ⟨ms, hL⟩ : ∃ ms, Ls g.length = g :: ms := by
    have h2 := (hs.list g.length hgd).head
    rw [hg.head] at h2
    cases hL : Ls g.length with
    | nil => simp [hL] at h2
    | cons m ms =>
        have hm := (hvac _ hgd m (hL ▸ List.mem_cons_self)).1
        exact ⟨ms, by rw [PoolCfg.addr_inj hm.symm (by simpa [hL] using h2)]⟩
  have hnd := hs.nodup hgd
  rw [hL, List.nodup_cons] at hnd
  obtain ⟨q₀, htake, h2⟩ := hs.takeHead hgd hL
  have hne : ∀ l ≤ c.depth, ∀ m ∈ Function.update Ls g.length ms l, Vacant A m ∧ m ≠ g :=
    fun l hl m hm => by
      rcases Shows.mem_update hm with ⟨rfl, hm'⟩ | ⟨hne, hm'⟩
      · exact ⟨(hvac _ hl m (hL ▸ List.mem_cons_of_mem g hm')).2, fun e => hnd.1 (e ▸ hm')⟩
      · obtain ⟨rfl, hv⟩ := hvac l hl m hm'
        exact ⟨hv, fun e => hne (e ▸ rfl)⟩
  have hap : ∀ l ≤ c.depth, ∀ m ∈ Function.update Ls g.length ms l, ¬ m <:+ g ∧ ¬ g <:+ m :=
    fun l hl m hm => by
      obtain ⟨hv, hmg⟩ := hne l hl m hm
      exact ⟨fun hs => hmg (hv.eq_of_suffix hg.vacant hs),
        fun hs => hmg (hg.vacant.eq_of_suffix hv hs).symm⟩
  obtain ⟨p', q₁, r, h3, h4, h5, h6⟩ := Shows.splitDown_coalesce (c.levelFor size - g.length)
    (by omega) htake h2 hap
    (fun l hlt hle => by
      rw [Function.update_of_ne (by omega), List.eq_nil_iff_forall_not_mem]
      intro m hm
      obtain ⟨rfl, hv⟩ := hvac l (by omega) m hm
      have := hg.deepest m hv (by omega)
      omega)
    (fun m hm hmg hor => hor.elim (fun hM => hg.vacant.not_marked (hM.of_suffix hm)) hmg)
  rw [show g.length + (c.levelFor size - g.length) = c.levelFor size by have := hg.level; omega]
    at h4
  rw [alloc_of_findFree h0 hsz (h.findFree_source hld hg), h3, Option.bind_some, h4] at h1
  obtain ⟨rfl, -⟩ := Prod.mk.inj (Except.ok.inj (Option.some.inj h1))
  rw [← hng] at h5
  have hnA := Set.mem_insert n A
  -- the source put back in front of the rest of its list
  have hback : ∀ l, Ls l = Function.update (Function.update Ls g.length ms) g.length
      (g :: Function.update Ls g.length ms g.length) l := fun l => by
    rw [Function.update_idem, Function.update_self, ← hL, Function.update_eq_self]
  have hgM : Marked A [] → g ≠ [] := fun hM e => (e ▸ hg.vacant).not_marked hM
  cases n with
  | nil =>
      -- the whole pool was handed out
      obtain rfl : g = [] := List.suffix_nil.mp (hng ▸ suffix_leftmost _ g)
      have hA := vacant_root_iff.mp hg.vacant
      have hl0 : c.levelFor size = 0 := hn.symm
      rw [hl0] at h3 h4
      obtain rfl : p = p' := Option.some.inj h3
      obtain ⟨rfl, -⟩ := Prod.mk.inj (Option.some.inj (htake.symm.trans h4))
      have hno : ∀ l ≤ c.depth, Function.update Ls [].length ms l = [] := fun l hl =>
        List.eq_nil_iff_forall_not_mem.mpr fun m hm => by
          obtain ⟨hv, hmg⟩ := hne l hl m hm
          rw [hA] at hv
          exact hmg (vacant_empty_iff.mp hv)
      refine ⟨_, hq.dealloc_root hnA, ((h2.unmark hgd).putRoot hno).congr (fun m hm => ?_)
        (fun hM => absurd rfl (hgM hM)) fun l => ?_⟩
      · exact ⟨fun hM => ⟨Or.inl hM, hm⟩, fun hM => hM.1.resolve_right hm⟩
      · rw [hback l, hno _ hgd]
        rfl
  | cons b n =>
      rw [hq.dealloc_node hnA, h5]
      cases g with
      | nil =>
          refine ⟨r.putFreed (c.addr []) 0, rfl, (h6.putFreed hgd hap).congr (fun m hm => ?_)
            (fun hM => Or.inl hM) hback⟩
          exact (or_iff_left hm).symm
      | cons b' g =>
          have hM : Marked A ((!b') :: g) := by
            obtain ⟨b'', hb⟩ := split_iff_child.mp hg.vacant.2
            by_cases e : b'' = b'
            · exact absurd (e ▸ hb) hg.vacant.not_marked
            · rwa [Bool.eq_not.mpr e] at hb
          have h7 := h6.unmark hgd
          rw [coalesce_used ((h7.bit ((!b') :: g) (by simp) hgd).mpr ⟨Or.inl hM, sibling_ne b' g⟩)]
          refine ⟨_, rfl, (h7.putFreed hgd hap).congr (fun m hm => ?_)
            (fun hM => ⟨Or.inl hM, by simp⟩) hback⟩
          constructor
          · intro hm'
            exact ⟨Or.inl hm', fun e => hg.vacant.not_marked (e ▸ hm')⟩
          · intro hm'
            exact hm'.1.resolve_right hm'.2

/-- **Free undoes alloc.** In a pool that represents a tree, dealloc of the block alloc just handed
    out returns `RTX_OK` and restores the list of every level, in its order, and every bit but the
    root's. -/
theorem Mem.dealloc_alloc (m m' : Mem) (i : PoolId) (T : Shape) (size a : Nat)
    (hT : Represents i.cfg T (m.pool i)) (h : kMpoolAlloc m i.mpid size = some (m', some a)) :
    ∃ q, kMpoolDealloc m' i.mpid (some a) = some (m.setPool i q, rtxOk) ∧
      (∀ l ≤ i.cfg.depth, ∀ as, (m.pool i).HoldsList l as → q.HoldsList l as) ∧
      ∀ j, j ≠ 0 → q.check j = (m.pool i).check j := by
  rw [Pools.kMpoolAlloc_eq] at h
  split at h
  · cases h
  · cases h
  next p a' halloc =>
    cases h
    obtain ⟨h0, hs⟩ := Pool.size_of_alloc halloc
    obtain ⟨Ls, h1, h2⟩ := hT.inv.rep.shows
    obtain ⟨q, h3, h4⟩ := hT.inv.undo_alloc h1 h2 h0 hs halloc
    refine ⟨q, ?_, h1.same h4⟩
    have e : ((m.setPool i p).pool i).dealloc i.cfg (some a) = some (.ok q) := by
      rw [Mem.pool_setPool, if_pos rfl]
      exact h3
    rw [Pools.kMpoolDealloc_eq, e]
    cases i <;> rfl

theorem Mem.dealloc_alloc_created : ∃ m a q,
    kMpoolAlloc (Pools.init Pools.blank).mem PoolId.iram1.mpid 20 = some (m, some a) ∧
    kMpoolDealloc m PoolId.iram1.mpid (some a) =
      some ((Pools.init Pools.blank).mem.setPool .iram1 q, rtxOk) ∧
    ∀ j, j ≠ 0 → q.check j = false := by
  obtain ⟨p, n, T, h1, -, -⟩ := Represents.first (Pools.init Pools.blank).mem .iram1 _ rfl
    20 (by decide) (by decide)
  obtain ⟨q, h2, -, h3⟩ := Mem.dealloc_alloc (Pools.init Pools.blank).mem _ .iram1 .free 20 _
    (Represents.created iram1 _) h1
  refine ⟨_, _, q, h1, h2, fun j hj => (h3 j hj).trans ?_⟩
  exact (Pool.check_created iram1 _ j)

end Rtx
