/-
  File:      Rtx/Mem/FreeList.lean
  Subject:   The free lists: what the list code of k_mem.c does to one of them.

  `HoldsList p l as`: the free list of level `l` is the doubly linked list of the addresses `as`.
  One lemma for each edit: taking the head, putting the halves of a split block, `pop_block` at
  the head, in the middle and at the end, and putting a freed block in front.
-/
import Rtx.Lib.Linked
import Rtx.Mem.Layout

namespace Rtx

open Lib BlockTree

namespace Pool

/-- The bit of a node. -/
def bit (p : Pool) (n : Path) : Bool := p.check (bitIndex n.length (index n))

/-- The bit of a child, as the code addresses it. -/
theorem check_child (p : Pool) (b : Bool) (n : Path) :
    p.check (bitIndex (n.length + 1) (index (b :: n))) = p.bit (b :: n) := rfl

/-! ## 1. What the elementary writes change -/

@[simp] theorem setPrev_freeList (p : Pool) (a : Nat) (v : Option Nat) :
    (p.setPrev a v).freeList = p.freeList := rfl
@[simp] theorem setPrev_bitTree (p : Pool) (a : Nat) (v : Option Nat) :
    (p.setPrev a v).bitTree = p.bitTree := rfl
@[simp] theorem setNext_freeList (p : Pool) (a : Nat) (v : Option Nat) :
    (p.setNext a v).freeList = p.freeList := rfl
@[simp] theorem setNext_bitTree (p : Pool) (a : Nat) (v : Option Nat) :
    (p.setNext a v).bitTree = p.bitTree := rfl
@[simp] theorem setHead_mem (p : Pool) (l : Nat) (v : Option Nat) :
    (p.setHead l v).mem = p.mem := rfl
@[simp] theorem setHead_bitTree (p : Pool) (l : Nat) (v : Option Nat) :
    (p.setHead l v).bitTree = p.bitTree := rfl
@[simp] theorem setTail_mem (p : Pool) (l : Nat) (v : Option Nat) :
    (p.setTail l v).mem = p.mem := rfl
@[simp] theorem setTail_bitTree (p : Pool) (l : Nat) (v : Option Nat) :
    (p.setTail l v).bitTree = p.bitTree := rfl
@[simp] theorem mark_mem (p : Pool) (i : Nat) : (p.mark i).mem = p.mem := rfl
@[simp] theorem mark_freeList (p : Pool) (i : Nat) : (p.mark i).freeList = p.freeList := rfl
@[simp] theorem unmark_mem (p : Pool) (i : Nat) : (p.unmark i).mem = p.mem := rfl
@[simp] theorem unmark_freeList (p : Pool) (i : Nat) : (p.unmark i).freeList = p.freeList := rfl

@[simp] theorem setPrevIf_freeList (p : Pool) (a v : Option Nat) :
    (p.setPrevIf a v).freeList = p.freeList := by cases a <;> rfl
@[simp] theorem setPrevIf_bitTree (p : Pool) (a v : Option Nat) :
    (p.setPrevIf a v).bitTree = p.bitTree := by cases a <;> rfl

@[simp] theorem setPrev_next (p : Pool) (a z : Nat) (v : Option Nat) :
    ((p.setPrev a v).mem z).next = (p.mem z).next := by
  simp only [setPrev, Function.update_apply]; split <;> simp_all
@[simp] theorem setNext_prev (p : Pool) (a z : Nat) (v : Option Nat) :
    ((p.setNext a v).mem z).prev = (p.mem z).prev := by
  simp only [setNext, Function.update_apply]; split <;> simp_all
theorem setPrev_prev (p : Pool) (a z : Nat) (v : Option Nat) :
    ((p.setPrev a v).mem z).prev = if z = a then v else (p.mem z).prev := by
  simp only [setPrev, Function.update_apply]; split <;> rfl
theorem setNext_next (p : Pool) (a z : Nat) (v : Option Nat) :
    ((p.setNext a v).mem z).next = if z = a then v else (p.mem z).next := by
  simp only [setNext, Function.update_apply]; split <;> rfl
theorem setPrev_mem_ne (p : Pool) {a z : Nat} (h : z ≠ a) (v : Option Nat) :
    (p.setPrev a v).mem z = p.mem z := by
  simp only [setPrev, Function.update_of_ne h]
theorem setNext_mem_ne (p : Pool) {a z : Nat} (h : z ≠ a) (v : Option Nat) :
    (p.setNext a v).mem z = p.mem z := by
  simp only [setNext, Function.update_of_ne h]

@[simp] theorem setPrevIf_next (p : Pool) (a v : Option Nat) (z : Nat) :
    ((p.setPrevIf a v).mem z).next = (p.mem z).next := by
  cases a <;> simp [setPrevIf]
theorem setPrevIf_prev (p : Pool) (a v : Option Nat) (z : Nat) :
    ((p.setPrevIf a v).mem z).prev = if some z = a then v else (p.mem z).prev := by
  cases a with
  | none => simp [setPrevIf]
  | some a => simp [setPrevIf, setPrev_prev]
theorem setPrevIf_mem_ne (p : Pool) {a : Option Nat} {z : Nat} (h : some z ≠ a)
    (v : Option Nat) : (p.setPrevIf a v).mem z = p.mem z := by
  cases a with
  | none => rfl
  | some a => exact setPrev_mem_ne p (fun e => h (congrArg some e)) v

@[simp] theorem putFreed_bitTree (p : Pool) (a l : Nat) :
    (p.putFreed a l).bitTree = p.bitTree := by
  simp only [putFreed]
  split <;> simp

theorem setHead_head (p : Pool) (l l' : Nat) (v : Option Nat) :
    ((p.setHead l v).freeList l').head = if l' = l then v else (p.freeList l').head := by
  simp only [setHead, Function.update_apply]; split <;> rfl
@[simp] theorem setTail_head (p : Pool) (l l' : Nat) (v : Option Nat) :
    ((p.setTail l v).freeList l').head = (p.freeList l').head := by
  simp only [setTail, Function.update_apply]; split <;> simp_all

theorem check_mark (p : Pool) (i j : Nat) : (p.mark i).check j = (decide (j = i) || p.check j) :=
  checkBit_setBit p.bitTree i j

theorem check_unmark (p : Pool) (i j : Nat) :
    (p.unmark i).check j = (!decide (j = i) && p.check j) :=
  checkBit_clearBit p.bitTree i j

theorem check_congr {p p' : Pool} (h : p'.bitTree = p.bitTree) (i : Nat) :
    p'.check i = p.check i := by
  rw [check, h, check]

theorem bit_mark {c : PoolCfg} (p : Pool) {n m : Path} (hn : n.length ≤ c.depth)
    (hm : m.length ≤ c.depth) :
    (p.mark (bitIndex n.length (index n))).bit m = (decide (m = n) || p.bit m) := by
  rw [bit, check_mark]
  congr 1
  refine decide_eq_decide.mpr ⟨fun h => ?_, fun h => h ▸ rfl⟩
  exact bitIndex_inj (PoolCfg.length_lt hm) (PoolCfg.length_lt hn) h

theorem bit_unmark {c : PoolCfg} (p : Pool) {n m : Path} (hn : n.length ≤ c.depth)
    (hm : m.length ≤ c.depth) :
    (p.unmark (bitIndex n.length (index n))).bit m = (!decide (m = n) && p.bit m) := by
  rw [bit, check_unmark]
  congr 2
  refine decide_eq_decide.mpr ⟨fun h => ?_, fun h => h ▸ rfl⟩
  exact bitIndex_inj (PoolCfg.length_lt hm) (PoolCfg.length_lt hn) h

theorem bit_congr {p p' : Pool} (h : p'.bitTree = p.bitTree) (n : Path) : p'.bit n = p.bit n :=
  check_congr h _

/-- A pool just created has no bit set. -/
theorem check_created (c : PoolCfg) (p : Pool) (i : Nat) : (p.create c).check i = false := by
  rw [check, checkBit_eq]
  simp [create]

/-! ## 2. Free lists -/

/-- The free list of a level is the doubly linked list of the addresses `as`. -/
structure HoldsList (p : Pool) (l : Nat) (as : List Nat) : Prop where
  head : (p.freeList l).head = as.head?
  linked : Linked (fun a => (p.mem a).next) (fun a => (p.mem a).prev) as
  first : ∀ a ∈ as.head?, (p.mem a).prev = none
  nodup : as.Nodup

/-- `p'` is `p` except for the free list `l` and the links of the nodes in `zs`. -/
structure Touches (p p' : Pool) (l : Nat) (zs : List Nat) : Prop where
  head : ∀ l', l' ≠ l → (p'.freeList l').head = (p.freeList l').head
  mem : ∀ z, z ∉ zs → p'.mem z = p.mem z

variable {p p' : Pool} {l : Nat} {a x y : Nat} {as as₁ as₂ : List Nat}

theorem HoldsList.congr (h : HoldsList p l as)
    (hh : (p'.freeList l).head = (p.freeList l).head) (hm : ∀ z ∈ as, p'.mem z = p.mem z) :
    HoldsList p' l as where
  head := hh.trans h.head
  linked := h.linked.congr (fun z hz => by rw [hm z hz])
    (fun z hz => by rw [hm z (List.mem_of_mem_tail hz)])
  first := fun z hz => by
    rw [hm z (List.mem_of_mem_head? hz)]
    exact h.first z hz
  nodup := h.nodup

/-- Taking the first node off a list (`takeHead`, and `pop_block` at the head). -/
theorem HoldsList.pop (h : HoldsList p l (a :: as)) :
    HoldsList ((p.setHead l (p.mem a).next).setPrevIf (p.mem a).next none) l as ∧
      Touches p ((p.setHead l (p.mem a).next).setPrevIf (p.mem a).next none) l as := by
  have hn : (p.mem a).next = as.head? := h.linked.next_head
  have hd := h.nodup
  rw [List.nodup_cons] at hd
  rw [hn]
  refine ⟨⟨?_, ?_, ?_, hd.2⟩, ⟨?_, ?_⟩⟩
  · rw [setPrevIf_freeList, setHead_head, if_pos rfl]
  · refine h.linked.tail.congr (fun z _ => by simp) (fun z hz => ?_)
    have hz' : some z ≠ as.head? := by
      intro e
      cases as with
      | nil => simp at e
      | cons b as =>
          obtain rfl : z = b := by simpa using e
          exact (List.nodup_cons.mp hd.2).1 hz
    simp [setPrevIf_prev, hz']
  · intro z hz
    rw [setPrevIf_prev, if_pos hz.symm]
  · intro l' hl'
    rw [setPrevIf_freeList, setHead_head, if_neg hl']
  · intro z hz
    refine setPrevIf_mem_ne _ (fun e => hz ?_) _
    exact List.mem_of_mem_head? e.symm

/-- The loop of `pop_block` runs to the end of the list when the block is not met before it. -/
theorem popLoop_none (hl : Linked (fun a => (p.mem a).next) (fun a => (p.mem a).prev) (x :: as))
    (ha : a ∉ (x :: as).dropLast) {fuel : Nat} (hf : as.length < fuel) :
    p.popLoop a fuel x = some p := by
  induction as generalizing x fuel with
  | nil =>
      obtain ⟨f, rfl⟩ : ∃ f, fuel = f + 1 := ⟨fuel - 1, by omega⟩
      have hx : (p.mem x).next = none := linked_singleton.mp hl
      unfold popLoop
      rw [hx]
  | cons b as ih =>
      obtain ⟨f, rfl⟩ : ∃ f, fuel = f + 1 := ⟨fuel - 1, by simp at hf; omega⟩
      have hx : (p.mem x).next = some b := (linked_cons_cons.mp hl).1
      rw [List.dropLast_cons_cons, List.mem_cons, not_or] at ha
      have hf' : as.length < f := by simp at hf; omega
      have := ih (linked_cons_cons.mp hl).2.2 ha.2 hf'
      unfold popLoop
      simp only [hx, if_neg ha.1, Option.bind_eq_bind, Option.bind_some]
      exact this

/-- The loop walks past the nodes before the block. -/
theorem popLoop_walk
    (hl : Linked (fun a => (p.mem a).next) (fun a => (p.mem a).prev) (x :: as ++ a :: as₂))
    (ha : a ∉ x :: as) (fuel : Nat) :
    p.popLoop a (as.length + 1 + fuel) x = p.popLoop a fuel a := by
  induction as generalizing x with
  | nil =>
      have hx : (p.mem x).next = some a := (linked_cons_cons.mp hl).1
      have hne : a ≠ x := fun e => ha (by simp [e])
      rw [List.length_nil, Nat.zero_add, Nat.add_comm]
      conv_lhs => unfold popLoop
      simp only [hx, if_neg hne, Option.bind_eq_bind, Option.bind_some]
  | cons b as ih =>
      have hx : (p.mem x).next = some b := (linked_cons_cons.mp hl).1
      rw [List.mem_cons, not_or] at ha
      have := ih (linked_cons_cons.mp hl).2.2 ha.2
      rw [List.length_cons, show as.length + 1 + 1 + fuel = (as.length + 1 + fuel) + 1 by omega]
      conv_lhs => unfold popLoop
      simp only [hx, if_neg ha.1, Option.bind_eq_bind, Option.bind_some]
      exact this

/-- **`pop_block` removes the head of the list.** -/
theorem popBlock_head (h : HoldsList p l (a :: as)) :
    ∃ p', p.popBlock l a = some p' ∧ HoldsList p' l as ∧ Touches p p' l as ∧
      p'.bitTree = p.bitTree := by
  obtain ⟨h1, h2⟩ := h.pop
  have hh : (p.freeList l).head = some a := h.head
  have hn : (p.mem a).next = as.head? := h.linked.next_head
  cases as with
  | nil =>
      rw [List.head?_nil] at hn
      rw [hn] at h1 h2
      refine ⟨(p.setHead l none).setTail l none, ?_, ?_, ⟨?_, ?_⟩, rfl⟩
      · unfold popBlock
        simp only [hh, if_true, hn]
      · exact h1.congr (setTail_head _ _ _ _) (fun z hz => rfl)
      · intro l' hl'
        rw [setTail_head]
        exact h2.head l' hl'
      · exact h2.mem
  | cons b as =>
      rw [List.head?_cons] at hn
      rw [hn] at h1 h2
      refine ⟨(p.setHead l (some b)).setPrev b none, ?_, h1, h2, rfl⟩
      unfold popBlock
      simp only [hh, if_true, hn]

/-- **`pop_block` removes a node with a predecessor and a successor.** -/
theorem popBlock_inner (h : HoldsList p l (as₁ ++ x :: a :: y :: as₂))
    (hlen : (as₁ ++ x :: a :: y :: as₂).length ≤ 2 ^ 32) :
    ∃ p', p.popBlock l a = some p' ∧ HoldsList p' l (as₁ ++ x :: y :: as₂) ∧
      Touches p p' l [x, y] ∧ p'.bitTree = p.bitTree := by
  have hd := h.nodup
  have hax : (p.mem a).prev = some x := h.linked.adjacent.2
  have hay : (p.mem a).next = some y := by
    have h' := h.linked
    rw [show as₁ ++ x :: a :: y :: as₂ = (as₁ ++ [x]) ++ a :: y :: as₂ by simp] at h'
    exact h'.adjacent.1
  simp only [List.nodup_append, List.nodup_cons, List.mem_cons, not_or] at hd
  obtain ⟨hd1, ⟨⟨hxa, hxy, hx2⟩, ⟨hay', ha2⟩, hy2, hd2⟩, hdis⟩ := hd
  have ha1 : a ∉ as₁ := fun hm => hdis a hm a (Or.inr (Or.inl rfl)) rfl
  have hx1 : x ∉ as₁ := fun hm => hdis x hm x (Or.inl rfl) rfl
  have hy1 : y ∉ as₁ := fun hm => hdis y hm y (Or.inr (Or.inr (Or.inl rfl))) rfl
  -- the pool after the two link writes
  have hp' : ∀ z, ((p.setNext x (some y)).setPrev y (some x)).mem z =
      ⟨if z = y then some x else (p.mem z).prev, if z = x then some y else (p.mem z).next⟩ := by
    intro z
    have h1 : (((p.setNext x (some y)).setPrev y (some x)).mem z).prev =
        if z = y then some x else (p.mem z).prev := by rw [setPrev_prev, setNext_prev]
    have h2 : (((p.setNext x (some y)).setPrev y (some x)).mem z).next =
        if z = x then some y else (p.mem z).next := by rw [setPrev_next, setNext_next]
    rw [← h1, ← h2]
  generalize hq : (p.setNext x (some y)).setPrev y (some x) = q at hp'
  have hlinked : Linked (fun a => (q.mem a).next) (fun a => (q.mem a).prev)
      (as₁ ++ x :: y :: as₂) := by
    refine h.linked.remove_inner ?_ ?_ (fun z hz => ?_) (fun z hz => ?_)
    · simp [hp']
    · simp [hp']
    · have : z ≠ x := by
        intro e; subst e
        rcases List.mem_append.mp hz with hz | hz
        · exact hx1 hz
        · rcases List.mem_cons.mp hz with e | hz
          · exact hxy e
          · exact hx2 hz
      simp [hp', this]
    · have : z ≠ y := by
        intro e; subst e
        rcases List.mem_append.mp hz with hz | hz
        · rcases List.mem_append.mp (List.mem_of_mem_tail hz) with hz | hz
          · exact hy1 hz
          · exact hxy (List.mem_singleton.mp hz).symm
        · exact hy2 hz
      simp [hp', this]
  have hqa : (q.mem a).next = some y := by simp [hp', Ne.symm hxa, hay]
  -- the head of the list is not `a`, so the loop runs: up to `a`, over it, and to the end
  have hrun : ∀ w ws, as₁ ++ [x] = w :: ws → p.popLoop a (2 ^ 32) w = some q := by
    intro w ws e
    have hw : a ∉ w :: ws := by
      rw [← e]
      intro hm
      rcases List.mem_append.mp hm with hm | hm
      · exact ha1 hm
      · exact hxa (List.mem_singleton.mp hm).symm
    have hl : Linked (fun a => (p.mem a).next) (fun a => (p.mem a).prev)
        (w :: ws ++ a :: y :: as₂) := by
      rw [← e]; simpa using h.linked
    have hlen' : ws.length + 1 + (as₂.length + 2) ≤ 2 ^ 32 := by
      have e' := congrArg List.length e
      simp only [List.length_append, List.length_cons, List.length_nil] at e' hlen
      omega
    obtain ⟨f, hf⟩ : ∃ f, 2 ^ 32 = ws.length + 1 + (f + 1) :=
      ⟨2 ^ 32 - ws.length - 2, by omega⟩
    rw [hf, popLoop_walk hl hw]
    unfold popLoop
    have hu : p.unlink a = some q := by
      unfold unlink
      simp only [hax, hay]
      exact congrArg some hq
    simp only [hay, if_true, hu, Option.bind_eq_bind, Option.bind_some, hqa]
    refine popLoop_none (linked_append.mp hlinked).2.tail (fun hm => ?_) (by omega)
    rcases List.mem_cons.mp (List.dropLast_subset _ hm) with e | hm
    · exact hay' e
    · exact ha2 hm
  refine ⟨q, ?_, ⟨?_, hlinked, ?_, ?_⟩, ⟨?_, ?_⟩, ?_⟩
  · unfold popBlock
    have hh := h.head
    cases as₁ with
    | nil =>
        simp only [List.nil_append, List.head?_cons] at hh
        simp only [hh, if_neg (Ne.symm hxa)]
        exact hrun x [] rfl
    | cons w ws =>
        have hne : a ≠ w := fun e => ha1 (by simp [e])
        simp only [List.cons_append, List.head?_cons] at hh
        simp only [hh, if_neg hne]
        exact hrun w (ws ++ [x]) rfl
  · have hh := h.head
    rw [← hq, setPrev_freeList, setNext_freeList, hh]
    cases as₁ <;> rfl
  · intro z hz
    have hzy : z ≠ y := by
      intro e; subst e
      cases as₁ with
      | nil => simp only [List.nil_append, List.head?_cons, Option.mem_def, Option.some.injEq] at hz
               exact hxy hz
      | cons w ws =>
          simp only [List.cons_append, List.head?_cons, Option.mem_def, Option.some.injEq] at hz
          exact hy1 (by simp [hz])
    have hf := h.first z (by cases as₁ <;> simpa using hz)
    simp [hp', hzy, hf]
  · have := h.nodup
    rw [show as₁ ++ x :: a :: y :: as₂ = (as₁ ++ [x]) ++ a :: (y :: as₂) by simp] at this
    have := List.Nodup.sublist (List.Sublist.append_left (List.sublist_cons_self a (y :: as₂)) _) this
    simpa using this
  · intro l' _
    rw [← hq, setPrev_freeList, setNext_freeList]
  · intro z hz
    simp only [List.mem_cons, List.not_mem_nil, or_false, not_or] at hz
    rw [← hq, setPrev_mem_ne _ hz.2, setNext_mem_ne _ hz.1]
  · rw [← hq]; rfl

/-- The last node of a list is not removed, unless it is also the first: `pop_block` stops
    before it. -/
theorem popBlock_last (h : HoldsList p l (x :: as ++ [a]))
    (hlen : (x :: as ++ [a]).length ≤ 2 ^ 32) :
    p.popBlock l a = some p := by
  have hd := h.nodup
  have hh : (p.freeList l).head = some x := h.head
  have hne : a ≠ x := by
    intro e
    rw [List.cons_append, List.nodup_cons] at hd
    exact hd.1 (by simp [e])
  unfold popBlock
  simp only [hh, if_neg hne]
  have hl := h.linked
  rw [List.cons_append] at hl
  have ha : a ∉ (x :: (as ++ [a])).dropLast := by
    rw [← List.cons_append, List.dropLast_concat]
    exact fun hm => (List.nodup_append.mp hd).2.2 a hm a (by simp) rfl
  refine popLoop_none hl ha ?_
  simp only [List.cons_append, List.length_cons] at hlen
  omega

/-- Putting a node at the head of a list. -/
theorem HoldsList.putFreed (h : HoldsList p l as) (ha : a ∉ as) :
    HoldsList (p.putFreed a l) l (a :: as) ∧ Touches p (p.putFreed a l) l (a :: as) ∧
      (p.putFreed a l).bitTree = p.bitTree := by
  have hne : some a ≠ as.head? := fun e => ha (List.mem_of_mem_head? e.symm)
  have hput : p.putFreed a l =
      (((p.setPrev a none).setNext a as.head?).setPrevIf as.head? (some a)).setHead l (some a) := by
    unfold Pool.putFreed
    simp only [h.head, if_neg hne]
  rw [hput]
  refine ⟨⟨?_, ?_, ?_, List.nodup_cons.mpr ⟨ha, h.nodup⟩⟩, ⟨?_, ?_⟩, by simp⟩
  · rw [setHead_head, if_pos rfl, List.head?_cons]
  · refine h.linked.push_front ?_ (fun z hz => ?_) (fun z hz => ?_) (fun z hz => ?_)
    · simp [setNext_next]
    · have : z ≠ a := fun e => ha (e ▸ hz)
      simp [setNext_next, this]
    · simp only [setHead_mem, setPrevIf_prev]
      rw [if_pos hz.symm]
    · have hza : z ≠ a := fun e => ha (e ▸ List.mem_of_mem_tail hz)
      have hzh : some z ≠ as.head? := by
        intro e
        cases as with
        | nil => simp at hz
        | cons b as =>
            obtain rfl : z = b := by simpa using e
            exact (List.nodup_cons.mp h.nodup).1 hz
      simp [setPrevIf_prev, hzh, setPrev_prev, hza]
  · intro z hz
    obtain rfl : a = z := by simpa using hz
    simp [setPrevIf_prev, hne, setPrev_prev]
  · intro l' hl'
    rw [setHead_head, if_neg hl']
    simp
  · intro z hz
    rw [List.mem_cons, not_or] at hz
    rw [setHead_mem, setPrevIf_mem_ne _ (fun e => hz.2 (List.mem_of_mem_head? e.symm)),
      setNext_mem_ne _ hz.1, setPrev_mem_ne _ hz.1]

/-- The two halves of a block become the list of their level. -/
theorem holdsList_putHalves (c : PoolCfg) (p : Pool) (l a : Nat)
    (h : a ≠ a + c.size / power2 (l + 1)) :
    HoldsList (p.putHalves c l a) (l + 1) [a, a + c.size / power2 (l + 1)] ∧
      Touches p (p.putHalves c l a) (l + 1) [a, a + c.size / power2 (l + 1)] ∧
      (p.putHalves c l a).bitTree = p.bitTree := by
  unfold putHalves
  generalize a + c.size / power2 (l + 1) = a' at h
  refine ⟨⟨?_, ?_, ?_, ?_⟩, ⟨fun l' hl' => ?_, fun z hz => ?_⟩, rfl⟩
  · simp [setHead_head]
  · refine linked_cons_cons.mpr ⟨?_, ?_, linked_singleton.mpr ?_⟩
    · simp [setNext_next, h]
    · simp [setPrev_prev]
    · simp [setNext_next]
  · intro z hz
    obtain rfl : a = z := by simpa using hz
    simp [setPrev_prev, h]
  · simpa using h
  · simp [setHead_head, hl']
  · simp only [List.mem_cons, List.not_mem_nil, or_false, not_or] at hz
    rw [setNext_mem_ne _ hz.2, setPrev_mem_ne _ hz.2, setNext_mem_ne _ hz.1,
      setPrev_mem_ne _ hz.1]
    rfl

end Pool

end Rtx
