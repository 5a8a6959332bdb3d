/-
  File:      Rtx/Mem/Rep.lean
  Subject:   How the bit tree and the free lists of a pool represent a block tree.

  `Rep c X B F p`: the bits of `p` are the nodes of `B` (the root's bit may be set without `B`), and
  the free list of each level holds exactly the nodes of `F` of that level, doubly linked, each
  once; no node of `F` lies inside another. The elementary steps of alloc and dealloc each have
  one lemma here: which `B` and `F` the pool represents after the step.

  `PoolInv c X A p`: `p` represents the tree with the allocated nodes `A`.
-/
import Rtx.Mem.Lists

namespace Rtx

open BlockTree

/-! ## 1. The tree a pool represents -/

/-- The pool `p` represents a tree: the set bits are the nodes of `B`, and the free list of each
    level holds the nodes of `F` of that level. The root's bit may be set without `B`. -/
structure Rep (c : PoolCfg) (X : Nat → Bool) (B F : Path → Prop) (p : Pool) : Prop where
  bit : ∀ n, n ≠ [] → n.length ≤ c.depth → (p.bit n = true ↔ B n)
  root : B [] → p.bit [] = true
  beyond : ∀ i, 2 ^ (c.depth + 1) - 1 ≤ i → p.check i = X i
  apart : ∀ m n, F m → F n → m <:+ n → m = n
  lists : ∀ l ≤ c.depth, ∃ ns : List Path,
    p.HoldsList l (ns.map c.addr) ∧ ∀ n, n ∈ ns ↔ n.length = l ∧ F n

namespace Rep

variable {c : PoolCfg} {X : Nat → Bool} {B B' F F' : Path → Prop} {p : Pool} {n : Path} {l : Nat}

theorem congr (h : Rep c X B F p) (hB : ∀ n, n ≠ [] → (B' n ↔ B n)) (hB0 : B' [] → B [])
    (hF : ∀ n, F' n ↔ F n) : Rep c X B' F' p where
  bit n h0 hn := (h.bit n h0 hn).trans (hB n h0).symm
  root hb := h.root (hB0 hb)
  beyond := h.beyond
  apart m n hm hn := h.apart m n ((hF m).mp hm) ((hF n).mp hn)
  lists l hl := by
    obtain ⟨ns, h1, h2⟩ := h.lists l hl
    exact ⟨ns, h1, fun n => (h2 n).trans (and_congr_right fun _ => (hF n).symm)⟩

/-- The head of a list is NULL exactly when no node of the level is free. -/
theorem head_none_iff (h : Rep c X B F p) (hl : l ≤ c.depth) :
    (p.freeList l).head = none ↔ ∀ n, n.length = l → ¬ F n := by
  obtain ⟨ns, h1, h2⟩ := h.lists l hl
  rw [h1.head, List.head?_eq_none_iff, List.map_eq_nil_iff, List.eq_nil_iff_forall_not_mem]
  refine ⟨fun he n hn hf => he n ((h2 n).mpr ⟨hn, hf⟩), fun he n hn => ?_⟩
  exact he n ((h2 n).mp hn).1 ((h2 n).mp hn).2

theorem head_addr (h : Rep c X B F p) (hl : l ≤ c.depth) {a : Nat}
    (ha : (p.freeList l).head = some a) : ∃ n, n.length = l ∧ F n ∧ c.addr n = a := by
  obtain ⟨ns, h1, h2⟩ := h.lists l hl
  have hm : a ∈ ns.map c.addr := List.mem_of_mem_head? (h1.head.symm.trans ha)
  obtain ⟨n, hn, rfl⟩ := List.mem_map.mp hm
  exact ⟨n, ((h2 n).mp hn).1, ((h2 n).mp hn).2, rfl⟩

/-- The lists of a pool, in their order. -/
theorem shows (h : Rep c X B F p) : ∃ Ls : Nat → List Path, Shows c X B Ls p ∧
    ∀ n, n.length ≤ c.depth → (n ∈ Ls n.length ↔ F n) := by
  choose! Ls hlist hmem using h.lists
  refine ⟨Ls, ⟨h.bit, h.root, h.beyond, fun l hl n hn => ((hmem l hl n).mp hn).1,
    fun l hl l' hl' m hm n hn => h.apart m n ((hmem l hl m).mp hm).2 ((hmem l' hl' n).mp hn).2,
    hlist⟩, fun n hn => ?_⟩
  rw [hmem n.length hn n]
  exact and_iff_right rfl

end Rep

/-- What a pool shows it represents. -/
theorem Shows.rep {c : PoolCfg} {X : Nat → Bool} {B F : Path → Prop} {p : Pool}
    {Ls : Nat → List Path} (h : Shows c X B Ls p)
    (hap : ∀ m n, F m → F n → m <:+ n → m = n)
    (hF : ∀ n, n.length ≤ c.depth → (n ∈ Ls n.length ↔ F n)) : Rep c X B F p := by
  refine ⟨h.bit, h.root, h.beyond, hap, fun l hl => ⟨Ls l, h.list l hl, fun n => ?_⟩⟩
  constructor
  · intro hn
    have hnl := h.level l hl n hn
    subst hnl
    exact ⟨rfl, (hF n hl).mp hn⟩
  · rintro ⟨rfl, hn⟩
    exact (hF n hl).mpr hn

namespace Rep

variable {c : PoolCfg} {X : Nat → Bool} {B F F' : Path → Prop} {p : Pool} {n : Path} {l : Nat}
  {Ls : Nat → List Path}

/-- Membership in lists of which one was rewritten. -/
theorem mem_update_iff (hLs : ∀ n, n.length ≤ c.depth → (n ∈ Ls n.length ↔ F n)) {ns : List Path}
    (hl : ∀ m, m.length = l → (m ∈ ns ↔ F' m)) (hother : ∀ m, m.length ≠ l → (F' m ↔ F m))
    (m : Path) (hm : m.length ≤ c.depth) : m ∈ Function.update Ls l ns m.length ↔ F' m := by
  by_cases e : m.length = l
  · rw [e, Function.update_self]
    exact hl m e
  · rw [Function.update_of_ne e, hother m e]
    exact hLs m hm

/-- A list of nodes without one of them. -/
theorem mem_without (ns₁ : List Path) {ns₂ : List Path} (hnd : (ns₁ ++ n :: ns₂).Nodup) (m : Path) :
    m ∈ ns₁ ++ ns₂ ↔ m ∈ ns₁ ++ n :: ns₂ ∧ m ≠ n := by
  rw [List.nodup_middle, List.nodup_cons] at hnd
  rw [List.mem_append, List.mem_append, List.mem_cons]
  constructor
  · intro hm
    refine ⟨hm.imp_right Or.inr, fun e => hnd.1 ?_⟩
    exact e ▸ List.mem_append.mpr hm
  · rintro ⟨hm, hne⟩
    exact hm.imp_right fun h => h.resolve_left hne

/-- Taking the head of a list claims its node. -/
theorem takeHead (h : Rep c X B F p) (hd : n.length ≤ c.depth)
    (hh : (p.freeList n.length).head = some (c.addr n)) :
    ∃ p', p.takeHead c n.length (blockSize c.sizeLog2 n) = some (p', c.addr n) ∧
      Rep c X (fun m => B m ∨ m = n) (fun m => F m ∧ m ≠ n) p' := by
  obtain ⟨Ls, hs, hLs⟩ := h.shows
  -- the list is `n` followed by the other free nodes of the level
  obtain ⟨ms, hL⟩ : ∃ ms, Ls n.length = n :: ms := by
    have h1 := (hs.list n.length hd).head
    rw [hh] at h1
    cases hL : Ls n.length with
    | nil => simp [hL] at h1
    | cons m ms =>
        have hm : m ∈ Ls n.length := hL ▸ List.mem_cons_self
        have e : c.addr n = c.addr m := by simpa [hL] using h1
        exact ⟨ms, by rw [PoolCfg.addr_inj (hs.level _ hd m hm).symm e]⟩
  obtain ⟨q, h1, h2⟩ := hs.takeHead hd hL
  refine ⟨q, h1, h2.rep (fun m m' hm hm' => h.apart m m' hm.1 hm'.1) (mem_update_iff hLs
    (fun m hm => ?_) fun m hm => and_iff_left fun e => hm (e ▸ rfl))⟩
  have hnd := hs.nodup hd
  rw [hL] at hnd
  rw [← hLs m (hm ▸ hd), hm, hL]
  exact mem_without [] hnd m

/-- Splitting a taken block frees its two halves. -/
theorem putHalves (h : Rep c X B F p) (hd : n.length < c.depth)
    (hap : ∀ m, F m → ¬ m <:+ n ∧ ¬ n <:+ m) (hno : ∀ m, m.length = n.length + 1 → ¬ F m) :
    Rep c X B (fun m => F m ∨ ∃ b, m = b :: n) (p.putHalves c n.length (c.addr n)) := by
  obtain ⟨Ls, hs, hLs⟩ := h.shows
  have hF : ∀ l ≤ c.depth, ∀ m ∈ Ls l, F m := fun l hl m hm => by
    have hml := hs.level l hl m hm
    subst hml
    exact (hLs m hl).mp hm
  -- a free node and a child of `n` are on different branches
  have hchild : ∀ m b, F m → ¬ m <:+ b :: n ∧ ¬ (b :: n) <:+ m := by
    intro m b hm
    refine ⟨fun hs => ?_, fun hs => (hap m hm).2 ((List.suffix_cons b n).trans hs)⟩
    rcases List.suffix_cons_iff.mp hs with rfl | hs
    · exact hno _ rfl hm
    · exact (hap m hm).1 hs
  refine (hs.putHalves hd fun l hl m hm => hap m (hF l hl m hm)).rep
    (fun m m' hm hm' hsuf => ?_) (mem_update_iff hLs (fun m hm => ?_) fun m hm => ?_)
  · rcases hm with hm | ⟨b, rfl⟩ <;> rcases hm' with hm' | ⟨b', rfl⟩
    · exact h.apart m m' hm hm' hsuf
    · exact absurd hsuf (hchild m b' hm).1
    · exact absurd hsuf (hchild m' b hm').2
    · exact hsuf.eq_of_length (by simp)
  · simp only [List.mem_cons, List.not_mem_nil, or_false]
    constructor
    · rintro (rfl | rfl)
      · exact Or.inr ⟨_, rfl⟩
      · exact Or.inr ⟨_, rfl⟩
    · rintro (hf | ⟨b, rfl⟩)
      · exact absurd hf (hno m hm)
      · cases b <;> simp
  · refine or_iff_left ?_
    rintro ⟨b, rfl⟩
    exact hm rfl

theorem unmark (h : Rep c X B F p) (hd : n.length ≤ c.depth) :
    Rep c X (fun m => B m ∧ m ≠ n) F (p.unmark (bitIndex n.length (index n))) := by
  obtain ⟨Ls, hs, hLs⟩ := h.shows
  exact (hs.unmark hd).rep h.apart hLs

/-- **`pop_block` takes a free node off its list, unless it is the last of several.** -/
theorem popBlock (h : Rep c X B F p) (hF : F n) (hd : n.length ≤ c.depth)
    (hclean : (p.freeList n.length).head = some (c.addr n) ∨ (p.mem (c.addr n)).next ≠ none) :
    ∃ p', p.popBlock n.length (c.addr n) = some p' ∧
      Rep c X B (fun m => F m ∧ m ≠ n) p' ∧ p'.bitTree = p.bitTree ∧
      (∀ l, l ≠ n.length → (p'.freeList l).head = (p.freeList l).head) ∧
      ∀ m, F m → m.length ≠ n.length → m.length ≤ c.depth → p'.mem (c.addr m) = p.mem (c.addr m) := by
  obtain ⟨Ls, hs, hLs⟩ := h.shows
  obtain ⟨ns₁, ns₂, hL⟩ := List.append_of_mem ((hLs n hd).mpr hF)
  have hlist := hs.list n.length hd
  have hnd := hs.nodup hd
  rw [hL] at hlist hnd
  -- the last of several nodes is not the head, and has no successor
  have hpos : ns₁ = [] ∨ ns₂ ≠ [] := by
    by_contra hlast
    obtain ⟨h1, h2⟩ := not_or.mp hlast
    obtain rfl := not_not.mp h2
    rw [List.map_append] at hlist
    rcases hclean with e | e
    · cases ns₁ with
      | nil => exact h1 rfl
      | cons x ns₁ =>
          have hx : c.addr x = c.addr n := by
            have := hlist.head.symm.trans e
            simpa using this
          have h5 := (List.nodup_append.mp hlist.nodup).2.2
          exact h5 (c.addr x) (by simp) (c.addr n) (by simp) hx
    · exact e hlist.linked.next_append
  obtain ⟨p', hp, h1, h2, h3, h4⟩ := hs.popBlock hd hL hpos
  refine ⟨p', hp, h1.rep (fun m m' hm hm' => h.apart m m' hm.1 hm'.1) (mem_update_iff hLs
    (fun m hm => ?_) fun m hm => and_iff_left fun e => hm (e ▸ rfl)), h2, h3,
    fun m hm hne hmd => h4 m.length hmd hne m ((hLs m hmd).mpr hm)⟩
  rw [← hLs m (hm ▸ hd), hm, hL]
  exact mem_without _ hnd m

/-- Putting a block back frees its node. -/
theorem putFreed (h : Rep c X B F p) (hd : n.length ≤ c.depth)
    (hap : ∀ m, F m → ¬ m <:+ n ∧ ¬ n <:+ m) :
    Rep c X B (fun m => F m ∨ m = n) (p.putFreed (c.addr n) n.length) := by
  obtain ⟨Ls, hs, hLs⟩ := h.shows
  have hF : ∀ l ≤ c.depth, ∀ m ∈ Ls l, F m := fun l hl m hm => by
    have hml := hs.level l hl m hm
    subst hml
    exact (hLs m hl).mp hm
  refine (hs.putFreed hd fun l hl m hm => hap m (hF l hl m hm)).rep (fun m m' hm hm' hsuf => ?_)
    (mem_update_iff hLs (fun m hm => ?_) fun m hm => or_iff_left fun e => hm (e ▸ rfl))
  · rcases hm with hm | rfl <;> rcases hm' with hm' | rfl
    · exact h.apart m m' hm hm' hsuf
    · exact absurd hsuf (hap m hm).1
    · exact absurd hsuf (hap m' hm').2
    · rfl
  · rw [List.mem_cons, ← hLs m (hm ▸ hd), hm, or_comm]

end Rep

/-! ## 2. The invariant -/

/-- **The pool's invariant**: it represents the block tree with the allocated nodes `A`. -/
structure PoolInv (c : PoolCfg) (X : Nat → Bool) (A : Set Path) (p : Pool) : Prop where
  antichain : Antichain A
  depth : ∀ a ∈ A, a.length ≤ c.depth
  rep : Rep c X (Marked A) (Vacant A) p

namespace PoolInv

variable {c : PoolCfg} {X : Nat → Bool} {A : Set Path} {p : Pool} {n : Path} {b : Bool}

theorem bit_iff (h : PoolInv c X A p) (h0 : n ≠ []) (hd : n.length ≤ c.depth) :
    p.bit n = true ↔ Marked A n := h.rep.bit n h0 hd

theorem marked_depth (h : PoolInv c X A p) (hm : Marked A n) : n.length ≤ c.depth := by
  obtain ⟨a, ha, hna⟩ := hm
  exact hna.length_le.trans (h.depth a ha)

theorem vacant_depth (h : PoolInv c X A p) (hv : Vacant A n) : n.length ≤ c.depth := by
  cases n with
  | nil => exact Nat.zero_le _
  | cons b m =>
      obtain ⟨b', hb⟩ := split_iff_child.mp hv.2
      exact h.marked_depth (n := b' :: m) hb

/-- A pool just created represents the tree with nothing allocated. -/
theorem create (c : PoolCfg) (p : Pool) : PoolInv c (fun _ => false) ∅ (p.create c) := by
  refine ⟨antichain_empty, fun a ha => absurd ha (Set.notMem_empty a), ⟨fun n _ _ => ?_,
    fun h => absurd h (not_marked_empty _), fun i _ => ?_,
    fun m n hm hn hs => hm.eq_of_suffix hn hs, fun l hl => ?_⟩⟩
  · refine ⟨fun hb => ?_, fun hm => absurd hm (not_marked_empty n)⟩
    rw [Pool.bit, Pool.check_created] at hb
    cases hb
  · exact Pool.check_created c p i
  · have hd : l < c.maxLevels := by
      have := c.levels_pos
      rw [PoolCfg.depth] at hl
      omega
    cases l with
    | zero =>
        refine ⟨[[]], ⟨?_, ?_, ?_, ?_⟩, fun n => ?_⟩
        · simp [Pool.create, PoolCfg.addr_root]
        · exact Lib.linked_singleton.mpr (by simp [Pool.create, PoolCfg.addr_root])
        · intro a ha
          obtain rfl : c.addr [] = a := by simpa using ha
          simp [Pool.create, PoolCfg.addr_root]
        · simp
        · rw [vacant_empty_iff, List.length_eq_zero_iff]
          simp
    | succ l =>
        refine ⟨[], ⟨?_, Lib.linked_nil, by simp, by simp⟩, fun n => ?_⟩
        · simp [Pool.create, hd]
        · rw [vacant_empty_iff]
          refine ⟨fun h => absurd h List.not_mem_nil, fun h => ?_⟩
          simp [h.2] at h

/-- Claiming a vacant node: `B` gains it and `F` loses it. -/
theorem claim (h : PoolInv c X A p) (hv : Vacant A n) {p' : Pool}
    (hr : Rep c X (fun m => Marked A m ∨ m = n) (fun m => Vacant A m ∧ m ≠ n) p') :
    PoolInv c X (insert n A) p' where
  antichain := Antichain.claim hv h.antichain
  depth a ha := ha.elim (fun e => e ▸ h.vacant_depth hv) (h.depth a)
  rep := hr.congr (fun _ _ => hv.marked_claim) hv.marked_claim.mp (fun _ => hv.vacant_claim)

/-- Trading an allocated node for one of its children: `B` gains the child, `F` its sibling. -/
theorem split (h : PoolInv c X A p) (hn : n ∈ A) (hd : n.length < c.depth) {p' : Pool}
    (hr : Rep c X (fun m => Marked A m ∨ m = b :: n) (fun m => Vacant A m ∨ m = (!b) :: n) p') :
    PoolInv c X (insert (b :: n) (A \ {n})) p' where
  antichain := h.antichain.split hn
  depth a ha := by
    rcases ha with rfl | ha
    · exact hd
    · exact h.depth a ha.1
  rep := hr.congr (fun _ _ => marked_split hn) (marked_split hn).mp
    (fun _ => h.antichain.vacant_split hn)

/-- Trading an allocated node with a free sibling for its parent. -/
theorem merge (h : PoolInv c X A p) (hn : b :: n ∈ A) (hs : ¬ Marked A ((!b) :: n)) {p' : Pool}
    (hr : Rep c X (fun m => Marked A m ∧ m ≠ b :: n) (fun m => Vacant A m ∧ m ≠ (!b) :: n) p') :
    PoolInv c X (insert n (A \ {b :: n})) p' where
  antichain := h.antichain.merge hn hs
  depth a ha := by
    rcases ha with rfl | ha
    · exact Nat.le_of_succ_le (h.depth _ hn)
    · exact h.depth a ha.1
  rep := hr.congr (fun _ _ => h.antichain.marked_merge hn hs) (h.antichain.marked_merge hn hs).mp
    (fun _ => h.antichain.vacant_merge hn hs)

/-- Giving back an allocated node without a free sibling. -/
theorem release (h : PoolInv c X A p) (hn : n ∈ A)
    (hs : ∀ b m, n = b :: m → Marked A ((!b) :: m)) {p' : Pool}
    (hr : Rep c X (fun m => Marked A m ∧ m ≠ n) (fun m => Vacant A m ∨ m = n) p') :
    PoolInv c X (A \ {n}) p' := by
  have hv := h.antichain.vacant_release hn hs
  have hm : ∀ m, Marked (A \ {n}) m ↔ Marked A m ∧ m ≠ n := fun m => by
    have := hv.marked_claim (m := m)
    rw [insert_release hn] at this
    rw [this]
    refine ⟨fun hx => ⟨Or.inl hx, ?_⟩, fun hx => hx.1.resolve_right hx.2⟩
    rintro rfl
    exact hv.not_marked hx
  have hf : ∀ m, Vacant (A \ {n}) m ↔ Vacant A m ∨ m = n := fun m => by
    have := hv.vacant_claim (m := m)
    rw [insert_release hn] at this
    rw [this]
    by_cases e : m = n
    · simp [e, hv]
    · simp [e]
  exact ⟨h.antichain.mono Set.sdiff_subset, fun a ha => h.depth a ha.1,
    hr.congr (fun m _ => hm m) (hm []).mp hf⟩

end PoolInv

end Rtx
