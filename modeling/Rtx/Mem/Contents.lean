/-
  File:      Rtx/Mem/Contents.lean
  Subject:   What is written into a block stays there.

  The allocator keeps its links in the memory it hands out, at the start of the free blocks. An
  alloc writes to the nodes of its lists and to the halves of the block it splits, a dealloc to the
  nodes of its lists and to the block it puts back: none of them lies in a block that is live before
  and after, or outside the pool (`Heap.Inv.alloc_spares`, `Heap.Inv.dealloc_spares`). The block
  handed out still has the first link of a list's head: NULL (`Heap.Inv.alloc_first`). It can be
  given back at once (`Heap.Inv.undo`).
-/
import Rtx.Mem.Trees

namespace Rtx

open Lib BlockTree

variable {c : PoolCfg} {X : Nat → Bool} {B : Path → Prop} {Ls : Nat → List Path} {p q r : Pool}
  {A : Set Path} {n m y : Path} {l a b z size : Nat}

/-! ## 1. Addresses -/

/-- `sizeof(DNODE)`. -/
def dnodeSize : Nat := 8

/-- A node of the allocator at the address `z` has a byte of the block. -/
def Meets (x : Nat × Nat) (z : Nat) : Prop := x.1 < z + dnodeSize ∧ z < x.1 + blockBytes x.2

/-- No node of the allocator inside the block of `n` is at the address `z`. -/
def PoolCfg.Misses (c : PoolCfg) (n : Path) (z : Nat) : Prop :=
  z < c.addr n ∨ c.addr n + blockSize c.sizeLog2 n < z + dnodeSize

/-- No free block has a node at the address `z`. -/
def Clear (c : PoolCfg) (A : Set Path) (z : Nat) : Prop := ∀ n, Vacant A n → c.Misses n z

/-- The address `z` is that of no node of the lists. -/
def Off (c : PoolCfg) (Ls : Nat → List Path) (z : Nat) : Prop :=
  ∀ l ≤ c.depth, ∀ m ∈ Ls l, z ≠ c.addr m

theorem le_two_pow (hl : l ≤ c.depth) : 32 ≤ 2 ^ (c.sizeLog2 - l) := by
  have h1 := c.sizeLog2_eq
  have h5 : 5 ≤ c.sizeLog2 - l := by omega
  exact Nat.pow_le_pow_right (by decide : 0 < 2) h5

theorem PoolCfg.Misses.ne_addr (h : c.Misses n z) (hd : n.length ≤ c.depth) : z ≠ c.addr n := by
  have h1 := le_two_pow hd
  unfold PoolCfg.Misses blockSize dnodeSize at h
  omega

/-- A node that has a byte of a block is in no block on another branch. -/
theorem PoolCfg.misses_of_apart (hy : y.length ≤ c.depth) (hn : n.length ≤ c.depth)
    (h1 : ¬ y <:+ n) (h2 : ¬ n <:+ y) (hlo : c.addr y < z + dnodeSize)
    (hhi : z < c.addr y + blockSize c.sizeLog2 y) : c.Misses n z := by
  have h3 := apart_of_not_suffix (length_le hy) (length_le hn) h1 h2
  unfold Misses addr at *
  omega

/-- A node outside the pool. -/
theorem PoolCfg.misses_outside (hn : n.length ≤ c.depth)
    (hz : z + dnodeSize ≤ c.start ∨ c.start + c.size ≤ z) : c.Misses n z := by
  have h1 := offset_add_blockSize_le (length_le hn)
  have h2 := c.size_eq
  unfold Misses addr dnodeSize at *
  omega

/-- A node in an allocated block, or outside the pool, is in no free block. -/
theorem PoolInv.clear (h : PoolInv c X A p)
    (hz : (∃ y ∈ A, c.addr y < z + dnodeSize ∧ z < c.addr y + blockSize c.sizeLog2 y) ∨
      z + dnodeSize ≤ c.start ∨ c.start + c.size ≤ z) : Clear c A z := by
  intro n hn
  rcases hz with ⟨y, hy, hlo, hhi⟩ | hz
  · obtain ⟨h1, h2⟩ := hn.apart h.antichain hy
    exact PoolCfg.misses_of_apart (h.depth y hy) (h.vacant_depth hn) h1 h2 hlo hhi
  · exact PoolCfg.misses_outside (h.vacant_depth hn) hz

theorem Clear.off (hz : Clear c A z) (hs : Shows c X B Ls p)
    (hLs : ∀ n, n.length ≤ c.depth → (n ∈ Ls n.length ↔ Vacant A n)) : Off c Ls z := by
  intro l hl m hm
  have hml := hs.level l hl m hm
  subst hml
  exact (hz m ((hLs m hl).mp hm)).ne_addr hl

/-- A shorter list. -/
theorem Off.sub (hz : Off c Ls z) {ns : List Path} (hns : ∀ m ∈ ns, m ∈ Ls l) :
    Off c (Function.update Ls l ns) z := by
  intro l' hl' m hm
  exact hz l' hl' m (Shows.sub_update hns hm)

/-! ## 2. Alloc -/

namespace Pool

theorem takeHead_eq (hh : (p.freeList l).head = some a) (c : PoolCfg) (size : Nat) :
    p.takeHead c l size = some (((p.setHead l (p.mem a).next).setPrevIf (p.mem a).next none).mark
      (bitIndex l (nodeOffset c a / size)), a) := by
  unfold takeHead
  rw [hh]
  rfl

/-- Taking the head of a list writes to its successor. -/
theorem takeHead_mem (hh : (p.freeList l).head = some a) (hn : some z ≠ (p.mem a).next)
    (ht : p.takeHead c l size = some (q, b)) : q.mem z = p.mem z := by
  rw [takeHead_eq hh] at ht
  obtain ⟨rfl, -⟩ := Prod.mk.inj (Option.some.inj ht)
  rw [mark_mem, setPrevIf_mem_ne _ hn]
  rfl

theorem takeHead_prev (hh : (p.freeList l).head = some a) (hp : (p.mem a).prev = none)
    (ht : p.takeHead c l size = some (q, b)) : b = a ∧ (q.mem a).prev = none := by
  rw [takeHead_eq hh] at ht
  obtain ⟨rfl, rfl⟩ := Prod.mk.inj (Option.some.inj ht)
  refine ⟨rfl, ?_⟩
  rw [mark_mem, setPrevIf_prev]
  split
  · rfl
  · exact hp

/-- Putting the halves of a block in a list writes to the halves. -/
theorem putHalves_mem (c : PoolCfg) (p : Pool) (l : Nat) (h1 : z ≠ a)
    (h2 : z ≠ a + c.size / power2 (l + 1)) : (p.putHalves c l a).mem z = p.mem z := by
  unfold putHalves
  rw [setNext_mem_ne _ h2, setPrev_mem_ne _ h2, setNext_mem_ne _ h1, setPrev_mem_ne _ h1]
  rfl

theorem putHalves_head (c : PoolCfg) (p : Pool) (l a : Nat) :
    ((p.putHalves c l a).freeList (l + 1)).head = some a := by
  unfold putHalves
  simp [setHead_head]

theorem putHalves_first (c : PoolCfg) (p : Pool) (l a : Nat)
    (hpos : 0 < c.size / power2 (l + 1)) :
    (p.putHalves c l a).mem a = ⟨none, some (a + c.size / power2 (l + 1))⟩ := by
  have hne : a ≠ a + c.size / power2 (l + 1) := by omega
  unfold putHalves
  rw [setNext_mem_ne _ hne, setPrev_mem_ne _ hne]
  unfold setNext setPrev
  simp only [Function.update_self]

/-- **The splitting loop and the final take** write inside the block they start from, and to its
    successor; and the block handed out has no predecessor. -/
theorem splitDown_take (k : Nat) (hl : l + k ≤ c.depth) (hh : (p.freeList l).head = some a)
    (hp : (p.mem a).prev = none) (hs : splitDown c k p l = some q)
    (ht : q.takeHead c (l + k) size = some (r, b)) : (r.mem b).prev = none ∧
      ∀ z, some z ≠ (p.mem a).next → (z < a ∨ a + 2 ^ (c.sizeLog2 - l) < z + dnodeSize) →
        r.mem z = p.mem z := by
  induction k generalizing p l with
  | zero =>
      obtain rfl : p = q := Option.some.inj hs
      obtain ⟨rfl, h1⟩ := takeHead_prev hh hp ht
      exact ⟨h1, fun z hn _ => takeHead_mem hh hn ht⟩
  | succ k ih =>
      have hsize := c.sizeLog2_eq
      have hhalf : c.size / power2 (l + 1) = 2 ^ (c.sizeLog2 - (l + 1)) := by
        have := c.depth_lt
        rw [power2_eq (by omega), c.size_eq, Nat.pow_div (by omega) (by decide)]
      have hdouble : 2 ^ (c.sizeLog2 - l) = 2 * 2 ^ (c.sizeLog2 - (l + 1)) := by
        rw [show c.sizeLog2 - l = c.sizeLog2 - (l + 1) + 1 by omega, Nat.pow_succ]
        omega
      have h32 := le_two_pow (c := c) (l := l + 1) (by omega)
      unfold splitDown at hs
      rw [takeHead_eq hh] at hs
      generalize hq₁ : ((p.setHead l (p.mem a).next).setPrevIf (p.mem a).next none).mark
        (bitIndex l (nodeOffset c a / power2 (c.sizeLog2 - l))) = q₁ at hs
      have htake : p.takeHead c l (power2 (c.sizeLog2 - l)) = some (q₁, a) := by
        rw [takeHead_eq hh, hq₁]
      have hfirst := putHalves_first c q₁ l a (by omega)
      obtain ⟨h1, h2⟩ := ih (p := q₁.putHalves c l a) (l := l + 1) (by omega)
        (putHalves_head c q₁ l a) (congrArg Dnode.prev hfirst) hs
        (by rw [show l + 1 + k = l + (k + 1) by omega]; exact ht)
      refine ⟨h1, fun z hn hz => ?_⟩
      rw [hfirst, hhalf] at h2
      rw [hdouble] at hz
      unfold dnodeSize at h2 hz
      -- the halves are inside the block
      have hza : z ≠ a := by omega
      have hzb : z ≠ a + 2 ^ (c.sizeLog2 - (l + 1)) := by omega
      rw [h2 z (fun e => hzb (Option.some.inj e)) (by omega),
        putHalves_mem c q₁ l hza (hhalf ▸ hzb), takeHead_mem hh hn htake]

end Pool

/-- What `k_mpool_alloc` leaves alone, and the first link of the block it hands out. -/
theorem PoolInv.alloc_mem (h : PoolInv c X A p) (ha : p.alloc c size = some (.ok (q, a))) :
    (q.mem a).prev = none ∧ ∀ z, Clear c A z → q.mem z = p.mem z := by
  obtain ⟨h0, hs⟩ := Pool.size_of_alloc ha
  have hld := levelFor_le c size
  rcases h.alloc_spec h0 hs with ⟨h1, -⟩ | ⟨n, q', -, -, -, -, g, hg, -⟩
  · rw [h1] at ha
    cases ha
  obtain ⟨Ls, h2, h3⟩ := h.rep.shows
  have hgd : g.length ≤ c.depth := hg.level.trans hld
  have hlist := h2.list g.length hgd
  have hlevel : g.length + (c.levelFor size - g.length) = c.levelFor size := by
    have := hg.level
    omega
  rw [alloc_of_findFree h0 hs (h.findFree_source hld hg)] at ha
  obtain ⟨q₁, h4, ha⟩ := Option.bind_eq_some_iff.mp ha
  obtain ⟨⟨q₂, a₂⟩, h5, ha⟩ := Option.bind_eq_some_iff.mp ha
  obtain ⟨rfl, rfl⟩ := Prod.mk.inj (Except.ok.inj (Option.some.inj ha))
  -- the source is the head of its list
  have hhead : (p.freeList g.length).head = ((Ls g.length).map c.addr).head? := hlist.head
  rw [hg.head] at hhead
  have hprev : (p.mem (c.addr g)).prev = none := hlist.first _ hhead.symm
  obtain ⟨h6, h7⟩ := Pool.splitDown_take (c.levelFor size - g.length) (by omega) hg.head hprev h4
    (by rw [hlevel]; exact h5)
  refine ⟨h6, fun z hz => h7 z (fun hnext => ?_) (hz g hg.vacant)⟩
  -- the successor of the source is a node of the list
  obtain ⟨as, has⟩ : ∃ as, (Ls g.length).map c.addr = c.addr g :: as := by
    cases hL : (Ls g.length).map c.addr with
    | nil =>
        rw [hL] at hhead
        cases hhead
    | cons x as =>
        rw [hL] at hhead
        exact ⟨as, by rw [Option.some.inj hhead]⟩
  have hlinked := hlist.linked
  rw [has] at hlinked
  have hmem : z ∈ (Ls g.length).map c.addr := by
    rw [has]
    refine List.mem_cons_of_mem _ (List.mem_of_mem_head? ?_)
    exact hlinked.next_head.symm.trans hnext.symm
  obtain ⟨m, hm, e⟩ := List.mem_map.mp hmem
  exact hz.off h2 h3 g.length hgd m hm e.symm

/-! ## 3. Dealloc -/

/-- `pop_block` of a block that is not in the list. -/
theorem Pool.HoldsList.popBlock_absent {as : List Nat} (h : p.HoldsList l as) (ha : a ∉ as)
    (hlen : as.length ≤ 2 ^ 32) : p.popBlock l a = some p := by
  have hh := h.head
  unfold Pool.popBlock
  cases as with
  | nil =>
      rw [List.head?_nil] at hh
      rw [hh]
  | cons x as =>
      rw [List.head?_cons] at hh
      have hne : a ≠ x := fun e => ha (e ▸ List.mem_cons_self)
      rw [List.length_cons] at hlen
      simp only [hh, if_neg hne]
      exact Pool.popLoop_none h.linked (fun hm => ha (List.mem_of_mem_dropLast hm)) hlen

/-- **`pop_block`** writes to the nodes of its list. -/
theorem Shows.popBlock_mem (h : Shows c X B Ls p) (hd : n.length ≤ c.depth) (hz : Off c Ls z) :
    ∃ p' ns, p.popBlock n.length (c.addr n) = some p' ∧
      Shows c X B (Function.update Ls n.length ns) p' ∧ (∀ m ∈ ns, m ∈ Ls n.length) ∧
      p'.mem z = p.mem z := by
  have hsame : p.popBlock n.length (c.addr n) = some p → ∃ p' ns,
      p.popBlock n.length (c.addr n) = some p' ∧
      Shows c X B (Function.update Ls n.length ns) p' ∧ (∀ m ∈ ns, m ∈ Ls n.length) ∧
      p'.mem z = p.mem z := by
    intro hp
    refine ⟨p, Ls n.length, hp, ?_, fun m hm => hm, rfl⟩
    rw [Function.update_eq_self]
    exact h
  by_cases hn : n ∈ Ls n.length
  · obtain ⟨ns₁, ns₂, hL⟩ := List.append_of_mem hn
    have hsub : ∀ m ∈ ns₁ ++ ns₂, m ∈ Ls n.length := by
      intro m hm
      rw [hL]
      rw [List.mem_append] at hm ⊢
      exact hm.imp_right (List.mem_cons_of_mem n)
    by_cases hpos : ns₁ = [] ∨ ns₂ ≠ []
    · obtain ⟨p', zs, h1, h2, h3, h4, h5⟩ := h.popBlock_touches hd hL hpos
      have hzs : ∀ m ∈ zs, m ∈ Ls n.length := fun m hm => hsub m (h5 m hm)
      refine ⟨p', ns₁ ++ ns₂, h1, h.shorten hd hsub hzs h3 h2 h4, hsub, ?_⟩
      apply h3.mem
      intro hm
      obtain ⟨m, hm, e⟩ := List.mem_map.mp hm
      exact hz n.length hd m (hzs m hm) e.symm
    · obtain ⟨hne, he⟩ := not_or.mp hpos
      obtain rfl := not_not.mp he
      exact hsame (h.popBlock_last hd hL hne)
  · have hlist := h.list n.length hd
    have hlen := length_le hlist.nodup hd (h.level n.length hd)
    refine hsame (hlist.popBlock_absent (fun hm => hn ?_) hlen)
    obtain ⟨m, hm, e⟩ := List.mem_map.mp hm
    exact PoolCfg.addr_inj (h.level _ hd m hm) e ▸ hm

/-- **The merging loop** writes to the nodes of the lists. -/
theorem Shows.coalesce_mem (h : Shows c X B Ls p) (hd : n.length ≤ c.depth) (hz : Off c Ls z)
    (hq : Pool.coalesce c p (c.addr n) n.length (index n) = some (q, a, l)) :
    q.mem z = p.mem z ∧ l ≤ c.depth ∧ ∃ B' Ls', Shows c X B' Ls' q ∧ Off c Ls' z := by
  induction n generalizing B Ls p with
  | nil =>
      obtain ⟨rfl, -, rfl⟩ : p = q ∧ c.addr [] = a ∧ 0 = l := by
        simpa [Pool.coalesce] using hq
      exact ⟨rfl, Nat.zero_le _, B, Ls, h, hz⟩
  | cons b n ih =>
      have h1 := h.unmark hd
      by_cases hs : (p.unmark (bitIndex (b :: n).length (index (b :: n)))).bit ((!b) :: n) = true
      · rw [PoolInv.coalesce_used hs, Option.some.injEq, Prod.mk.injEq, Prod.mk.injEq] at hq
        obtain ⟨rfl, -, rfl⟩ := hq
        exact ⟨rfl, hd, _, Ls, h1, hz⟩
      · have hd' : ((!b) :: n).length ≤ c.depth := hd
        obtain ⟨p', ns, h2, h3, h4, h5⟩ := h1.popBlock_mem hd' hz
        rw [PoolInv.coalesce_free hd hs h2] at hq
        obtain ⟨h6, h7⟩ := ih h3 (Nat.le_of_succ_le hd) (hz.sub h4) hq
        exact ⟨h6.trans h5, h7⟩

/-- Putting a block back writes to it and to the head of its list. -/
theorem Pool.putFreed_mem (p : Pool) (l : Nat) (h1 : z ≠ a) (h2 : some z ≠ (p.freeList l).head) :
    (p.putFreed a l).mem z = p.mem z := by
  unfold Pool.putFreed
  dsimp only
  rw [Pool.setHead_mem]
  split
  · exact Pool.setPrev_mem_ne _ h1 _
  · rw [Pool.setPrevIf_mem_ne _ h2, Pool.setNext_mem_ne _ h1, Pool.setPrev_mem_ne _ h1]

/-- The head of a list is a free block. -/
theorem PoolInv.ne_head (h : PoolInv c X A p) (hz : Clear c A z) (hl : l ≤ c.depth)
    (hh : (p.freeList l).head = some a) : z ≠ a := by
  obtain ⟨m, hml, hm, rfl⟩ := h.rep.head_addr hl hh
  exact (hz m hm).ne_addr (hml ▸ hl)

/-- What `k_mpool_dealloc` leaves alone, if `A'` is allocated behind it. -/
theorem PoolInv.dealloc_mem {A' : Set Path} (h : PoolInv c X A p) (hn : n ∈ A)
    (h' : PoolInv c X A' q) (hz : Clear c A z) (hz' : Clear c A' z)
    (hd : p.dealloc c (some (c.addr n)) = some (.ok q)) : q.mem z = p.mem z := by
  cases n with
  | nil =>
      rw [h.dealloc_root hn] at hd
      obtain rfl := Except.ok.inj (Option.some.inj hd)
      -- the whole pool is vacant again
      have hne : z ≠ c.start := h'.ne_head hz' (Nat.zero_le _) (by
        unfold Pool.putRoot
        rw [Pool.setTail_head, Pool.setHead_head, if_pos rfl])
      unfold Pool.putRoot
      rw [Pool.setTail_mem, Pool.setHead_mem, Pool.setPrev_mem_ne _ hne, Pool.setNext_mem_ne _ hne,
        Pool.unmark_mem]
  | cons b n =>
      rw [h.dealloc_node hn] at hd
      obtain ⟨⟨q', a, l⟩, h1, hd⟩ := Option.bind_eq_some_iff.mp hd
      obtain rfl := Except.ok.inj (Option.some.inj hd)
      obtain ⟨Ls, h2, h3⟩ := h.rep.shows
      obtain ⟨h4, h5, B', Ls', h6, h7⟩ := h2.coalesce_mem (h.depth _ hn) (hz.off h2 h3) h1
      -- the merged block is the head of its list
      have hne : z ≠ a := h'.ne_head hz' h5 (by
        rw [Pool.putFreed, Pool.setHead_head, if_pos rfl])
      refine (Pool.putFreed_mem q' l hne fun hx => ?_).trans h4
      rw [(h6.list l h5).head] at hx
      obtain ⟨m, hm, e⟩ := List.mem_map.mp (List.mem_of_mem_head? hx.symm)
      exact h7 l h5 m hm e.symm

/-! ## 4. The users of a pool -/

namespace Heap

/-- A node at the address `z` is not the allocator's: it has a byte of a live block, or it is outside
    the pool. -/
def Foreign (c : PoolCfg) (h : Heap) (z : Nat) : Prop :=
  (∃ x ∈ h.live, Meets x z) ∨ z + dnodeSize ≤ c.start ∨ c.start + c.size ≤ z

variable {h : Heap} {x : Nat × Nat}

theorem Inv.clear (hI : h.Inv c) (hz : h.Foreign c z) :
    Clear c {n | n ∈ h.live.map (node c)} z := by
  apply hI.pool.clear
  refine hz.imp_left ?_
  rintro ⟨x, hx, h1, h2⟩
  obtain ⟨-, hsize, -⟩ := hI.block hx
  refine ⟨node c x, hI.mem_node hx, ?_⟩
  rw [hI.addr x hx, ← hsize]
  exact ⟨h1, h2⟩

/-- What the users of the pool write there is nothing to the allocator. -/
theorem Inv.overwrite (hI : h.Inv c) (hz : h.Foreign c z) (d : Dnode) :
    ({ h with pool := { h.pool with mem := Function.update h.pool.mem z d } } : Heap).Inv c :=
  hI.update (fun n hn hv => ((hI.clear hz n hv).ne_addr hn).symm) d

/-- **An alloc writes into no live block**, and nowhere outside the pool. -/
theorem Inv.alloc_spares (hI : h.Inv c) (ha : h.pool.alloc c size = some (.ok (q, a)))
    (hz : h.Foreign c z) : q.mem z = h.pool.mem z :=
  (hI.pool.alloc_mem ha).2 z (hI.clear hz)

/-- The first link in a block just handed out is NULL. -/
theorem Inv.alloc_first (hI : h.Inv c) (ha : h.pool.alloc c size = some (.ok (q, a))) :
    (q.mem a).prev = none :=
  (hI.pool.alloc_mem ha).1

/-- **A dealloc writes into no block that stays alive**, and nowhere outside the pool. -/
theorem Inv.dealloc_spares (hI : h.Inv c) (hx : x ∈ h.live)
    (hclean : h.pool.freesCleanly c x.1 = true)
    (hd : h.pool.dealloc c (some x.1) = some (.ok q)) (hz : (h.afterDealloc q x.1).Foreign c z) :
    q.mem z = h.pool.mem z := by
  obtain ⟨q', h1, hI'⟩ := hI.dealloc hx hclean
  obtain rfl : q = q' := Except.ok.inj (Option.some.inj (hd.symm.trans h1))
  rw [← hI.addr x hx] at hd
  apply hI.pool.dealloc_mem (hI.mem_node hx) hI'.pool (hI.clear ?_) (hI'.clear hz) hd
  exact hz.imp_left fun ⟨y, hy, hm⟩ => ⟨y, (List.mem_filter.mp hy).1, hm⟩

/-- **A block just handed out can be given back**: the books are as they were before, and nothing was
    written into a live block. -/
theorem Inv.undo (hI : h.Inv c) (hlive : h.live ≠ [])
    (ha : h.pool.alloc c size = some (.ok (q, a))) :
    ∃ r, q.dealloc c (some a) = some (.ok r) ∧ ({ h with pool := r } : Heap).Inv c ∧
      ∀ z, h.Foreign c z → r.mem z = h.pool.mem z := by
  obtain ⟨h0, hs⟩ := Pool.size_of_alloc ha
  obtain ⟨Ls, h1, h2⟩ := hI.pool.rep.shows
  obtain ⟨r, h3, h4⟩ := hI.pool.undo_alloc h1 h2 h0 hs ha
  have hmarked : Marked {n | n ∈ h.live.map (node c)} [] := by
    obtain ⟨x, hx⟩ := List.exists_mem_of_ne_nil _ hlive
    exact ⟨node c x, hI.mem_node hx, List.nil_suffix⟩
  have hr : ({ h with pool := r } : Heap).Inv c := by
    refine ⟨hI.addr, hI.fits, hI.nodup, ⟨hI.pool.antichain, hI.pool.depth, ?_⟩, ?_⟩
    · exact h4.rep (fun m m' hm hm' => hm.eq_of_suffix hm') h2
    · exact iff_of_true (h4.root hmarked) (Or.inl hlive)
  obtain ⟨p', a', h5, hI'⟩ : ∃ p' a', h.pool.alloc c size = some (.ok (p', a')) ∧
      (h.afterAlloc p' size (some a')).Inv c := by
    rcases hI.alloc size with ⟨e, he⟩ | hx
    · cases he.symm.trans ha
    · exact hx
  obtain ⟨rfl, rfl⟩ := Prod.mk.inj (Except.ok.inj (Option.some.inj (ha.symm.trans h5)))
  refine ⟨r, h3, hr, fun z hz => ?_⟩
  have hx : (a, size) ∈ (h.afterAlloc q size (some a)).live := List.mem_cons_self
  have hd : q.dealloc c (some (c.addr (node c (a, size)))) = some (.ok r) :=
    (congrArg (fun a => q.dealloc c (some a)) (hI'.addr _ hx)).trans h3
  refine (hI'.pool.dealloc_mem (hI'.mem_node hx) hr.pool (hI'.clear ?_) (hr.clear hz) hd).trans
    (hI.alloc_spares ha hz)
  -- the block is live meanwhile
  refine hz.imp_left ?_
  rintro ⟨y, hy, hm⟩
  exact ⟨y, List.mem_cons_of_mem _ hy, hm⟩

end Heap

end Rtx
