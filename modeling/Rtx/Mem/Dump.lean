/-
  File:      Rtx/Mem/Dump.lean
  Subject:   k_mpool_dump: the list of the free blocks.

  `dump_exact`: after any run whose deallocs merge cleanly, the dump of a pool lists its free
  blocks, the smallest first. They and the live blocks tile the pool, and they decide which
  requests k_mpool_alloc can serve.
-/
import Rtx.Mem.Pools
import Rtx.Libu.Printf

namespace Rtx

open Lib BlockTree Printf

/-! ## 1. The code -/

/-- What `printf` prints; no string is printed. -/
def print (fmt : String) (va : List (BitVec 32)) : Option (List UInt8) :=
  tfpFormat (fun _ => []) (chars fmt) va

/-- The loop along one list, from `tmp` on: the output so far, and `free_space`. Like
    `Pool.popLoop` it is cut off after `2 ^ 32` rounds. -/
def Pool.dumpList (p : Pool) (size : Nat) :
    Nat → Option Nat → List UInt8 → Nat → Option (List UInt8 × Nat)
  | _, none, out, freeSpace => some (out, freeSpace)
  | 0, some _, _, _ => none
  | fuel + 1, some tmp, out, freeSpace => do
      let line ← print "0x%x: 0x%x\r\n" [BitVec.ofNat 32 tmp, BitVec.ofNat 32 size]
      p.dumpList size fuel (p.mem tmp).next (out ++ line) (freeSpace + 1)

/-- The loop over the levels below `currLevel`, downwards. -/
def Pool.dumpLevels (c : PoolCfg) (p : Pool) :
    Nat → List UInt8 → Nat → Option (List UInt8 × Nat)
  | 0, out, freeSpace => some (out, freeSpace)
  | currLevel + 1, out, freeSpace => do
      let (out, freeSpace) ← p.dumpList (c.size / power2 currLevel) (2 ^ 32)
        (p.freeList currLevel).head out freeSpace
      p.dumpLevels c currLevel out freeSpace

/-- The dump of one pool, with its last line. -/
def Pool.dump (c : PoolCfg) (p : Pool) : Option (List UInt8 × Nat) := do
  let (out, freeSpace) ← p.dumpLevels c c.maxLevels [] 0
  let line ← print "%d free memory block(s) found\r\n" [BitVec.ofNat 32 freeSpace]
  some (out ++ line, freeSpace)

/-- `k_mpool_dump(mpid)`: what it prints, and what it returns. -/
def kMpoolDump (m : Mem) (mpid : Int) : Option (Mem × List UInt8 × Int) :=
  if mpid = mpidIram1 then do
    let (out, freeSpace) ← m.ram1.dump iram1
    some (m, out, freeSpace)
  else if mpid = mpidIram2 then do
    let (out, freeSpace) ← m.ram2.dump iram2
    some (m, out, freeSpace)
  else some (m.fail (some .EINVAL), [], 0)

/-! ## 2. The free blocks -/

/-- The line of a free block: its address and its size. -/
def dumpLine (x : Nat × Nat) : List UInt8 :=
  chars "0x" ++ (numeralText 16 false x.1 ++ (chars ": 0x" ++ (numeralText 16 false x.2 ++
    chars "\r\n")))

/-- The last line. -/
def dumpTotal (n : Nat) : List UInt8 :=
  numeralText 10 false n ++ chars " free memory block(s) found\r\n"

/-- The blocks, addresses and sizes, are pairwise disjoint, and every byte of the pool is in one. -/
structure Tiles (c : PoolCfg) (blocks : List (Nat × Nat)) : Prop where
  inside : ∀ x ∈ blocks, c.start ≤ x.1 ∧ x.1 + x.2 ≤ c.start + c.size
  apart : blocks.Pairwise fun x y => x.1 + x.2 ≤ y.1 ∨ y.1 + y.2 ≤ x.1
  cover : ∀ z, c.start ≤ z → z < c.start + c.size → ∃ x ∈ blocks, x.1 ≤ z ∧ z < x.1 + x.2

section Print

/-- The format of a line, taken apart. -/
def linePieces : List Piece :=
  (chars "0x").map .text ++ .conv false 0 (.hex false) :: (chars ": 0x").map .text ++
    .conv false 0 (.hex false) :: (chars "\r\n").map .text

def totalPieces : List Piece :=
  .conv false 0 .signed :: (chars " free memory block(s) found\r\n").map .text

/-- Text prints itself. -/
theorem render_text (str : BitVec 32 → List UInt8) (text : List UInt8) (ps : List Piece)
    (va : List (BitVec 32)) : render str (text.map .text ++ ps) va =
      (render str ps va).map (text ++ ·) := by
  induction text with
  | nil => cases h : render str ps va <;> exact h
  | cons c text ih =>
      rw [List.map_cons, List.cons_append, render, ih, Option.map_map]
      rfl

theorem field_zero (z : Bool) (text : List UInt8) : field z 0 text = text := by
  unfold field
  rw [Nat.zero_sub]
  rfl

theorem print_line {a size : Nat} (ha : a < 2 ^ 32) (hs : size < 2 ^ 32) :
    print "0x%x: 0x%x\r\n" [BitVec.ofNat 32 a, BitVec.ofNat 32 size] =
      some (dumpLine (a, size)) := by
  have hsource : chars "0x%x: 0x%x\r\n" = linePieces.flatMap Piece.source := by decide
  have hproper : ∀ p ∈ linePieces, p.Proper := by decide
  have hend : render (fun _ => []) ((chars "\r\n").map .text) [] = some (chars "\r\n") := by decide
  unfold print tfpFormat
  rw [hsource, formatLoop_render _ hproper _ (Nat.lt_succ_self _)]
  unfold linePieces
  rw [List.append_assoc, render_text, List.cons_append, render, render_text, render, hend]
  simp only [Option.map_some, Conv.text, field_zero, BitVec.toNat_ofNat, Nat.mod_eq_of_lt ha,
    Nat.mod_eq_of_lt hs]
  rfl

theorem print_total {n : Nat} (hn : n < 2 ^ 31) :
    print "%d free memory block(s) found\r\n" [BitVec.ofNat 32 n] = some (dumpTotal n) := by
  have hsource : chars "%d free memory block(s) found\r\n" = totalPieces.flatMap Piece.source := by
    decide
  have hproper : ∀ p ∈ totalPieces, p.Proper := by decide
  have hend : render (fun _ => []) ((chars " free memory block(s) found\r\n").map .text) [] =
      some (chars " free memory block(s) found\r\n") := by decide
  have hint := toInt_width hn
  have hpos : ¬ (n : Int) < 0 := by omega
  unfold print tfpFormat
  rw [hsource, formatLoop_render _ hproper _ (Nat.lt_succ_self _)]
  unfold totalPieces
  rw [render, hend]
  simp only [Option.map_some, Conv.text, field_zero, signedText, hint, if_neg hpos,
    Int.natAbs_natCast]
  rfl

end Print

/-! ## 3. The loops -/

section Loops

variable {c : PoolCfg} {X : Nat → Bool} {B : Path → Prop} {Ls : Nat → List Path} {p : Pool}
  {as : List Nat} {size fuel : Nat}

/-- The loop along a list prints a line for every block. -/
theorem Pool.dumpList_eq {pv : Nat → Option Nat}
    (h : Lib.Linked (fun a => (p.mem a).next) pv as) (has : ∀ a ∈ as, a < 2 ^ 32)
    (hs : size < 2 ^ 32) (hfuel : as.length ≤ fuel) (out : List UInt8) (n : Nat) :
    p.dumpList size fuel as.head? out n =
      some (out ++ (as.map fun a => (a, size)).flatMap dumpLine, n + as.length) := by
  induction as generalizing fuel out n with
  | nil => cases fuel <;> simp [Pool.dumpList]
  | cons a as ih =>
      obtain ⟨ha, has⟩ := List.forall_mem_cons.mp has
      rw [List.length_cons] at hfuel
      obtain ⟨fuel, rfl⟩ : ∃ f, fuel = f + 1 := ⟨fuel - 1, by omega⟩
      rw [List.head?_cons, Pool.dumpList, print_line ha hs, Option.bind_eq_bind, Option.bind_some,
        h.next_head, ih h.tail has (by omega), List.map_cons, List.flatMap_cons, List.append_assoc,
        List.length_cons]
      congr 2
      omega

/-- The free nodes of the levels below `l`, the deepest first. -/
def levelNodes (Ls : Nat → List Path) : Nat → List Path
  | 0 => []
  | l + 1 => Ls l ++ levelNodes Ls l

/-- The block of a node. -/
def PoolCfg.block (c : PoolCfg) (n : Path) : Nat × Nat := (c.addr n, blockSize c.sizeLog2 n)

theorem mem_levelNodes {n : Path} {m : Nat} : n ∈ levelNodes Ls m ↔ ∃ l, l < m ∧ n ∈ Ls l := by
  induction m with
  | zero => simp [levelNodes]
  | succ m ih =>
      rw [levelNodes, List.mem_append, ih]
      constructor
      · rintro (hn | ⟨l, hl, hn⟩)
        · exact ⟨m, by omega, hn⟩
        · exact ⟨l, by omega, hn⟩
      · rintro ⟨l, hl, hn⟩
        rcases Nat.lt_succ_iff_lt_or_eq.mp hl with hl | rfl
        · exact Or.inr ⟨l, hl, hn⟩
        · exact Or.inl hn

section Nodes

variable (h : Shows c X B Ls p)
include h

/-- A level has no more free nodes than nodes. -/
theorem Shows.length_level {l : Nat} (hl : l ≤ c.depth) : (Ls l).length ≤ 2 ^ l := by
  have hnd : ((Ls l).map index).Nodup := by
    refine List.Nodup.map_on (fun m hm m' hm' e => ?_) (h.nodup hl)
    exact eq_of_index_eq ((h.level l hl m hm).trans (h.level l hl m' hm').symm) e
  have hsub : (Ls l).map index ⊆ List.range (2 ^ l) := by
    intro i hi
    obtain ⟨m, hm, rfl⟩ := List.mem_map.mp hi
    exact List.mem_range.mpr (h.level l hl m hm ▸ index_lt m)
  have hlen := (hnd.subperm hsub).length_le
  rwa [List.length_range, List.length_map] at hlen

theorem Shows.length_levelNodes {m : Nat} (hm : m ≤ c.maxLevels) :
    (levelNodes Ls m).length < 2 ^ m := by
  induction m with
  | zero => exact Nat.one_pos
  | succ l ih =>
      have hl := h.length_level (l := l) (by rw [PoolCfg.depth]; omega)
      have hlt := ih (by omega)
      rw [levelNodes, List.length_append, Nat.pow_succ]
      omega

theorem Shows.length_of_mem {m : Nat} (hm : m ≤ c.maxLevels) {n : Path}
    (hn : n ∈ levelNodes Ls m) : n.length < m ∧ n.length ≤ c.depth ∧ n ∈ Ls n.length := by
  obtain ⟨l, hl, hn⟩ := mem_levelNodes.mp hn
  have hd : l ≤ c.depth := by
    rw [PoolCfg.depth]
    omega
  obtain rfl := h.level l hd n hn
  exact ⟨hl, hd, hn⟩

theorem Shows.nodup_levelNodes {m : Nat} (hm : m ≤ c.maxLevels) : (levelNodes Ls m).Nodup := by
  induction m with
  | zero => exact List.nodup_nil
  | succ l ih =>
      have hl : l ≤ c.depth := by
        rw [PoolCfg.depth]
        omega
      refine List.nodup_append.mpr ⟨h.nodup hl, ih (by omega), fun n hn n' hn' e => ?_⟩
      have h1 := h.level l hl n hn
      have h2 := (h.length_of_mem (by omega) hn').1
      rw [← e] at h2
      omega

/-- The smaller blocks stand in front. -/
theorem Shows.sorted_levelNodes {m : Nat} (hm : m ≤ c.maxLevels) :
    ((levelNodes Ls m).map c.block).Pairwise fun x y => x.2 ≤ y.2 := by
  refine List.pairwise_map.mpr ?_
  have hle : ∀ {n n' : Path}, n'.length ≤ n.length → (c.block n).2 ≤ (c.block n').2 :=
    fun h => Nat.pow_le_pow_right (by decide) (Nat.sub_le_sub_left h _)
  induction m with
  | zero => exact List.Pairwise.nil
  | succ l ih =>
      have hl : l ≤ c.depth := by
        rw [PoolCfg.depth]
        omega
      refine List.pairwise_append.mpr ⟨?_, ih (by omega), fun n hn n' hn' => hle ?_⟩
      · refine List.pairwise_of_forall_mem_list fun n hn n' hn' => hle ?_
        rw [h.level l hl n hn, h.level l hl n' hn']
      · have h1 := h.level l hl n hn
        have h2 := (h.length_of_mem (by omega) hn').1
        omega

/-- **The loop over the levels.** -/
theorem Shows.dumpLevels (hc : c.start + c.size ≤ 2 ^ 32) {m : Nat} (hm : m ≤ c.maxLevels)
    (out : List UInt8) (n : Nat) : p.dumpLevels c m out n =
      some (out ++ ((levelNodes Ls m).map c.block).flatMap dumpLine,
        n + (levelNodes Ls m).length) := by
  induction m generalizing out n with
  | zero => simp [Pool.dumpLevels, levelNodes]
  | succ l ih =>
      have hl : l ≤ c.depth := by
        rw [PoolCfg.depth]
        omega
      have hlist := h.list l hl
      have hsize : c.size / power2 l = 2 ^ (c.sizeLog2 - l) := by
        have h1 := c.depth_lt
        have h2 := c.sizeLog2_eq
        rw [power2_eq (by omega), c.size_eq, Nat.pow_div (by omega) (by decide)]
      have hs : 2 ^ (c.sizeLog2 - l) < 2 ^ 32 := by
        have := c.small
        exact Nat.pow_lt_pow_right (by decide) (by omega)
      have haddr : ∀ a ∈ (Ls l).map c.addr, a < 2 ^ 32 := by
        intro a ha
        obtain ⟨n, hn, rfl⟩ := List.mem_map.mp ha
        have hlen := h.level l hl n hn
        have h1 := offset_add_blockSize_le (PoolCfg.length_le (hlen ▸ hl))
        have h2 := blockSize_pos c.sizeLog2 n
        rw [← c.size_eq] at h1
        rw [PoolCfg.addr]
        omega
      have hblock : ((Ls l).map c.addr).map (fun a => (a, 2 ^ (c.sizeLog2 - l))) =
          (Ls l).map c.block := by
        rw [List.map_map]
        refine List.map_congr_left fun n hn => ?_
        rw [← h.level l hl n hn]
        rfl
      have hlen := Shows.length_le hlist.nodup hl (h.level l hl)
      have hloop := Pool.dumpList_eq hlist.linked haddr hs hlen out n
      rw [Pool.dumpLevels, hlist.head, hsize, hloop, Option.bind_eq_bind, Option.bind_some]
      dsimp only
      rw [ih (by omega), hblock, levelNodes, List.map_append, List.flatMap_append,
        List.append_assoc, List.length_append, List.length_map, Nat.add_assoc]

end Nodes

end Loops

/-! ## 4. The dump of a pool -/

section Dump

variable {c : PoolCfg} {h : Heap}

/-- What a dump says: these are the free blocks. -/
structure Heap.Lists (c : PoolCfg) (h : Heap) (free : List (Nat × Nat)) : Prop where
  prints : h.pool.dump c = some (free.flatMap dumpLine ++ dumpTotal free.length, free.length)
  sorted : free.Pairwise fun x y => x.2 ≤ y.2
  tiles : Tiles c (free ++ h.live.map fun x => (x.1, blockBytes x.2))
  serves : ∀ size, size ≠ 0 → size ≤ c.size →
    ((∃ p a, h.pool.alloc c size = some (.ok (p, a))) ↔ ∃ x ∈ free, blockBytes size ≤ x.2)

/-- The leaf of a byte. -/
theorem mem_leaf {z : Nat} (h1 : c.start ≤ z) (h2 : z < c.start + c.size) :
    let n := path c.depth ((z - c.start) / 32)
    c.start + offset c.sizeLog2 n ≤ z ∧ z < c.start + offset c.sizeLog2 n + 32 ∧
      blockSize c.sizeLog2 n = 32 := by
  intro n
  have hlog := c.sizeLog2_eq
  have hsize : blockSize c.sizeLog2 n = 32 := by
    rw [blockSize, length_path, hlog, Nat.add_sub_cancel_left]
    rfl
  have hlt : (z - c.start) / 32 < 2 ^ c.depth := by
    rw [c.size_eq, hlog, Nat.pow_add] at h2
    omega
  have hidx : index n = (z - c.start) / 32 := index_path hlt
  rw [offset, hidx, hsize]
  omega

/-- The free blocks and the live ones tile the pool. -/
theorem Heap.Inv.tiles (hI : h.Inv c) {X : Nat → Bool} {B : Path → Prop} {Ls : Nat → List Path}
    (hs : Shows c X B Ls h.pool)
    (hLs : ∀ n, n.length ≤ c.depth →
      (n ∈ Ls n.length ↔ Vacant {n | n ∈ h.live.map (Heap.node c)} n)) :
    Tiles c ((levelNodes Ls c.maxLevels).map c.block ++
      h.live.map fun x => (x.1, blockBytes x.2)) := by
  have hA := hI.pool.antichain
  have hfree : ∀ n, n ∈ levelNodes Ls c.maxLevels ↔
      Vacant {n | n ∈ h.live.map (Heap.node c)} n := by
    intro n
    constructor
    · intro hn
      obtain ⟨-, hd, hn⟩ := hs.length_of_mem le_rfl hn
      exact (hLs n hd).mp hn
    · intro hv
      have hd := hI.pool.vacant_depth hv
      refine mem_levelNodes.mpr ⟨n.length, ?_, (hLs n hd).mpr hv⟩
      have := c.levels_pos
      rw [PoolCfg.depth] at hd
      omega
  refine ⟨fun x hx => ?_, ?_, fun z h1 h2 => ?_⟩
  · rcases List.mem_append.mp hx with hx | hx
    · obtain ⟨n, hn, rfl⟩ := List.mem_map.mp hx
      have hd := hI.pool.vacant_depth ((hfree n).mp hn)
      have h1 := offset_add_blockSize_le (PoolCfg.length_le hd)
      rw [← c.size_eq] at h1
      unfold PoolCfg.block PoolCfg.addr
      dsimp only
      omega
    · obtain ⟨y, hy, rfl⟩ := List.mem_map.mp hx
      exact hI.safe.inside y hy
  · refine List.pairwise_append.mpr ⟨?_, List.pairwise_map.mpr hI.safe.disjoint, ?_⟩
    · refine List.pairwise_map.mpr ((hs.nodup_levelNodes le_rfl).pairwise_of_forall_ne ?_)
      intro n hn m hm hne
      have hv := (hfree n).mp hn
      have hw := (hfree m).mp hm
      have hap := apart_of_not_suffix (PoolCfg.length_le (hI.pool.vacant_depth hv))
        (PoolCfg.length_le (hI.pool.vacant_depth hw)) (fun e => hne (hv.eq_of_suffix hw e))
        fun e => hne (hw.eq_of_suffix hv e).symm
      unfold PoolCfg.block PoolCfg.addr
      dsimp only
      omega
    · intro x hx y' hy'
      obtain ⟨n, hn, rfl⟩ := List.mem_map.mp hx
      obtain ⟨y, hy, rfl⟩ := List.mem_map.mp hy'
      have hv := (hfree n).mp hn
      obtain ⟨h1, h2, h3⟩ := hI.block hy
      obtain ⟨h4, h5⟩ := hv.apart hA (hI.mem_node hy)
      have hap := apart_of_not_suffix (PoolCfg.length_le (hI.pool.vacant_depth hv))
        (PoolCfg.length_le h3) h5 h4
      unfold PoolCfg.block PoolCfg.addr
      dsimp only
      rw [h1, h2]
      omega
  · obtain ⟨h3, h4, h5⟩ := mem_leaf h1 h2
    have hlen : (path c.depth ((z - c.start) / 32)).length = c.depth := length_path _ _
    generalize path c.depth ((z - c.start) / 32) = n at h3 h4 h5 hlen
    obtain ⟨a, ha, hsuf⟩ | ⟨v, hv, hsuf⟩ | ⟨a, ha, hsuf, hne⟩ :=
      covered_or_vacant {n | n ∈ h.live.map (Heap.node c)} n
    · -- in a live block
      obtain ⟨x, hx, rfl⟩ := List.mem_map.mp ha
      obtain ⟨e1, e2, -⟩ := hI.block hx
      obtain ⟨h6, h7⟩ := block_subset (PoolCfg.length_le hlen.le) hsuf
      refine ⟨_, List.mem_append_right _ (List.mem_map_of_mem hx), ?_, ?_⟩
      · dsimp only
        omega
      · dsimp only
        omega
    · -- in a free block
      obtain ⟨h6, h7⟩ := block_subset (PoolCfg.length_le hlen.le) hsuf
      refine ⟨_, List.mem_append_left _ (List.mem_map_of_mem ((hfree v).mpr hv)), ?_, ?_⟩
      · unfold PoolCfg.block PoolCfg.addr
        dsimp only
        omega
      · unfold PoolCfg.block PoolCfg.addr
        dsimp only
        omega
    · -- no block is smaller than a leaf
      have h6 := hI.pool.depth a ha
      exact absurd (hsuf.eq_of_length_le (by omega)) hne

/-- A request is served from a free block that is large enough. -/
theorem Heap.Inv.serves (hI : h.Inv c) {size : Nat} (h0 : size ≠ 0) (hs : size ≤ c.size) :
    (∃ p a, h.pool.alloc c size = some (.ok (p, a))) ↔
      ∃ n, Vacant {n | n ∈ h.live.map (Heap.node c)} n ∧
        blockBytes size ≤ blockSize c.sizeLog2 n := by
  have hlog := PoolInv.blockLog2_le hs
  have hle : ∀ n, n.length ≤ c.depth →
      (blockBytes size ≤ blockSize c.sizeLog2 n ↔ n.length ≤ c.levelFor size) := by
    intro n hn
    have hlen := PoolCfg.length_le hn
    rw [blockBytes, blockSize, Nat.pow_le_pow_iff_right (by decide), PoolCfg.levelFor]
    omega
  rcases hI.pool.alloc_spec h0 hs with ⟨h1, hnone⟩ | ⟨n, p, h1, -, -, -, g, hg, -⟩
  · rw [h1]
    apply iff_of_false
    · rintro ⟨p, a, e⟩
      cases e
    · rintro ⟨n, hv, hb⟩
      exact hnone n ((hle n (hI.pool.vacant_depth hv)).mp hb) hv
  · have hd := hI.pool.vacant_depth hg.vacant
    exact iff_of_true ⟨p, _, h1⟩ ⟨g, hg.vacant, (hle g hd).mpr hg.level⟩

/-- **The dump of a pool that keeps the invariant.** -/
theorem Heap.Inv.lists (hI : h.Inv c) (hc : c.start + c.size ≤ 2 ^ 32) :
    ∃ free, h.Lists c free := by
  obtain ⟨Ls, hs, hLs⟩ := hI.pool.rep.shows
  refine ⟨_, ?_, hs.sorted_levelNodes le_rfl, hI.tiles hs hLs, fun size h0 hle => ?_⟩
  · have hlen := hs.length_levelNodes le_rfl
    have hmax : 2 ^ c.maxLevels ≤ 2 ^ 27 := by
      have h1 := c.depth_lt
      rw [PoolCfg.depth] at h1
      exact Nat.pow_le_pow_right (by decide) (by omega)
    have htotal : (levelNodes Ls c.maxLevels).length < 2 ^ 31 := by omega
    unfold Pool.dump
    rw [hs.dumpLevels hc le_rfl, Option.bind_eq_bind, Option.bind_some]
    dsimp only
    rw [Nat.zero_add, print_total htotal, List.length_map]
    rfl
  · rw [hI.serves h0 hle]
    constructor
    · rintro ⟨n, hv, hb⟩
      have hd := hI.pool.vacant_depth hv
      have hlt : n.length < c.maxLevels := by
        have := c.levels_pos
        rw [PoolCfg.depth] at hd
        omega
      exact ⟨_, List.mem_map_of_mem (mem_levelNodes.mpr ⟨_, hlt, (hLs n hd).mpr hv⟩), hb⟩
    · rintro ⟨x, hx, hb⟩
      obtain ⟨n, hn, rfl⟩ := List.mem_map.mp hx
      obtain ⟨-, hd, hn⟩ := hs.length_of_mem le_rfl hn
      exact ⟨n, (hLs n hd).mp hn, hb⟩

end Dump

/-! ## 5. Runs -/

namespace Pools

variable {s : Pools}

/-- What `k_mpool_dump(mpid)` says of a pool: these are the free blocks. -/
structure Dumps (s : Pools) (i : PoolId) (free : List (Nat × Nat)) : Prop where
  prints : kMpoolDump s.mem i.mpid =
    some (s.mem, free.flatMap dumpLine ++ dumpTotal free.length, (free.length : Int))
  sorted : free.Pairwise fun x y => x.2 ≤ y.2
  tiles : Tiles i.cfg (free ++ (s.live i).map fun x => (x.1, blockBytes x.2))
  serves : ∀ size, size ≠ 0 → size ≤ i.cfg.size →
    ((∃ m a, kMpoolAlloc s.mem i.mpid size = some (m, some a)) ↔ ∃ x ∈ free, blockBytes size ≤ x.2)

theorem kMpoolDump_eq (m : Mem) (i : PoolId) : kMpoolDump m i.mpid =
    ((m.pool i).dump i.cfg).map fun x => (m, x.1, (x.2 : Int)) := by
  have h1 : (mpidIram2 = mpidIram1) = False := by decide
  unfold kMpoolDump
  cases i
  · simp only [PoolId.mpid, if_true, Mem.pool, PoolId.cfg]
    cases m.ram1.dump iram1 <;> rfl
  · simp only [PoolId.mpid, h1, if_false, if_true, Mem.pool, PoolId.cfg]
    cases m.ram2.dump iram2 <;> rfl

theorem kMpoolAlloc_some_iff (m : Mem) (i : PoolId) (size : Nat) :
    (∃ m' a, kMpoolAlloc m i.mpid size = some (m', some a)) ↔
      ∃ p a, (m.pool i).alloc i.cfg size = some (.ok (p, a)) := by
  rw [kMpoolAlloc_eq]
  cases (m.pool i).alloc i.cfg size with
  | none => simp
  | some r =>
      cases r with
      | error e => simp
      | ok r => exact iff_of_true ⟨_, _, rfl⟩ ⟨_, _, rfl⟩

theorem Inv.dumps (hI : s.Inv) (i : PoolId) : ∃ free, s.Dumps i free := by
  have hc : i.cfg.start + i.cfg.size ≤ 2 ^ 32 := by cases i <;> decide
  obtain ⟨free, h⟩ := (hI i).lists hc
  have hprints : (s.mem.pool i).dump i.cfg = _ := h.prints
  refine ⟨free, ?_, h.sorted, h.tiles, fun size h0 hs => ?_⟩
  · rw [kMpoolDump_eq, hprints]
    rfl
  · exact (kMpoolAlloc_some_iff s.mem i size).trans (h.serves size h0 hs)

/-- **`k_mpool_dump` tells the truth**: in every run in which only live blocks are freed, and each
    merges cleanly, the dump of a pool ends and prints one line for every free block, the smallest
    first, and their number. The printed blocks and the live ones tile the pool, and
    `k_mpool_alloc` serves exactly the requests that fit in a printed block. -/
theorem dump_exact (m : Mem) (ops : List (PoolId × HeapOp))
    (h : Allowed Pools.step Clean (init m) ops) :
    ∃ s, Lib.run Pools.step (init m) ops = some s ∧ ∀ i, ∃ free, s.Dumps i free := by
  obtain ⟨s, hs, hI⟩ := (Inv.init m).run h
  exact ⟨s, hs, hI.dumps⟩

theorem dump_exact_pair : ∃ s, Lib.run Pools.step (init blank) [(.iram1, .alloc 20),
      (.iram2, .alloc 40), (.iram1, .alloc 32), (.iram1, .dealloc 0x10007000)] = some s ∧
    ∀ i, ∃ free, s.Dumps i free :=
  dump_exact blank _ (by decide +kernel)

end Pools

end Rtx
