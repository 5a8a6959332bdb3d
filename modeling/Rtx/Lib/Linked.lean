/-
  File:      Rtx/Lib/Linked.lean
  Subject:   NULL-terminated doubly linked lists, read off two link fields.

  `Linked nx pv l`: the nodes of `l` are linked in order by `nx` (next) and `pv` (previous), and
  the last one has no successor. Nothing is said of the first node's `pv`: an intrusive list may
  leave it stale.

  The edits (push at either end, insertion, removal) are stated pointwise: which links the new
  fields have, on which nodes they agree with the old ones. So any code that sets links can use
  them, whatever record the links are fields of.
-/
import Mathlib.Data.List.Chain

namespace Rtx.Lib

variable {α : Type*} {nx pv nx' pv' : α → Option α} {l l₁ l₂ : List α} {a x y : α}

/-- The nodes of `l` are doubly linked in order, and the last one ends the list. -/
def Linked (nx pv : α → Option α) (l : List α) : Prop :=
  l.IsChain (fun a b => nx a = some b ∧ pv b = some a) ∧ ∀ a ∈ l.getLast?, nx a = none

instance Linked.decidable [DecidableEq α] (nx pv : α → Option α) (l : List α) :
    Decidable (Linked nx pv l) := inferInstanceAs (Decidable (_ ∧ _))

/-! ## 1. Reading a linked list -/

theorem linked_nil : Linked nx pv [] := ⟨List.isChain_nil, by simp⟩

theorem linked_singleton : Linked nx pv [a] ↔ nx a = none := by
  simp [Linked]

theorem linked_cons_cons :
    Linked nx pv (a :: x :: l) ↔ nx a = some x ∧ pv x = some a ∧ Linked nx pv (x :: l) := by
  simp only [Linked, List.isChain_cons_cons, List.getLast?_cons_cons]
  tauto

theorem Linked.tail (h : Linked nx pv (a :: l)) : Linked nx pv l := by
  cases l with
  | nil => exact linked_nil
  | cons x l => exact (linked_cons_cons.mp h).2.2

theorem Linked.next_head (h : Linked nx pv (a :: l)) : nx a = l.head? := by
  cases l with
  | nil => exact linked_singleton.mp h
  | cons x l => exact (linked_cons_cons.mp h).1

/-- A list splits at a node: the part up to the node is a chain, the rest is linked. -/
theorem linked_append :
    Linked nx pv (l₁ ++ a :: l₂) ↔
      (l₁ ++ [a]).IsChain (fun a b => nx a = some b ∧ pv b = some a) ∧ Linked nx pv (a :: l₂) := by
  have : (l₁ ++ a :: l₂).getLast? = (a :: l₂).getLast? := by
    rw [List.getLast?_append_of_ne_nil _ (by simp)]
  unfold Linked
  rw [List.isChain_split, this, and_assoc]

theorem Linked.next_append (h : Linked nx pv (l₁ ++ a :: l₂)) : nx a = l₂.head? :=
  (linked_append.mp h).2.next_head

/-- The first node and the links determine the list. -/
theorem Linked.unique (h : Linked nx pv l₁) (h' : Linked nx pv l₂) (he : l₁.head? = l₂.head?) :
    l₁ = l₂ := by
  induction l₁ generalizing l₂ with
  | nil => exact (List.head?_eq_none_iff.mp he.symm).symm
  | cons a l₁ ih =>
      cases l₂ with
      | nil => cases he
      | cons b l₂ =>
          obtain rfl : a = b := by simpa using he
          rw [ih h.tail h'.tail (h.next_head.symm.trans h'.next_head)]

/-- Two adjacent nodes of a list. -/
theorem Linked.adjacent (h : Linked nx pv (l₁ ++ a :: x :: l₂)) :
    nx a = some x ∧ pv x = some a := by
  have := linked_cons_cons.mp (linked_append.mp h).2
  exact ⟨this.1, this.2.1⟩

/-- Every node's successor is in the list. -/
theorem Linked.next_mem (h : Linked nx pv l) (ha : a ∈ l) (hx : nx a = some x) : x ∈ l := by
  obtain ⟨l₁, l₂, rfl⟩ := List.append_of_mem ha
  have hn := h.next_append
  rw [hx] at hn
  cases l₂ with
  | nil => simp at hn
  | cons y l₂ => simp at hn; simp [hn]

/-- Only the last node of a duplicate-free list ends it. -/
theorem Linked.next_none_iff (h : Linked nx pv l) (ha : a ∈ l) (hd : l.Nodup) :
    nx a = none ↔ l.getLast? = some a := by
  obtain ⟨l₁, l₂, rfl⟩ := List.append_of_mem ha
  rw [h.next_append, List.getLast?_append_of_ne_nil _ (by simp)]
  cases l₂ with
  | nil => simp
  | cons y l₂ =>
      have hne : (a :: y :: l₂).getLast? ≠ some a := by
        intro e
        have hm : a ∈ y :: l₂ := by
          rw [List.getLast?_cons_cons] at e
          exact List.mem_of_getLast? e
        have := (List.nodup_append.mp hd).2.1
        exact (List.nodup_cons.mp this).1 hm
      simpa [List.getLast?_cons_cons] using hne

/-- In a duplicate-free list what comes later is not the first element. -/
theorem ne_head_of_mem_tail (hd : l.Nodup) (hx : x ∈ l.tail) : some x ≠ l.head? := by
  intro e
  cases l with
  | nil => exact absurd hx List.not_mem_nil
  | cons a l =>
      obtain rfl : x = a := by simpa using e
      exact (List.nodup_cons.mp hd).1 hx

/-! ## 2. Frames and edits -/

/-- The links of the nodes are all that counts (the first node's `pv` does not). -/
theorem Linked.congr (h : Linked nx pv l) (hn : ∀ z ∈ l, nx' z = nx z)
    (hp : ∀ z ∈ l.tail, pv' z = pv z) : Linked nx' pv' l := by
  induction l with
  | nil => exact linked_nil
  | cons a l ih =>
      cases l with
      | nil => exact linked_singleton.mpr ((hn a (by simp)).trans (linked_singleton.mp h))
      | cons x l =>
          obtain ⟨h1, h2, h3⟩ := linked_cons_cons.mp h
          refine linked_cons_cons.mpr ⟨(hn a (by simp)).trans h1, (hp x (by simp)).trans h2, ?_⟩
          exact ih h3 (fun z hz => hn z (List.mem_cons_of_mem _ hz))
            (fun z hz => hp z (List.mem_cons_of_mem _ hz))

/-- A new first node. -/
theorem Linked.push_front (h : Linked nx pv l) (ha : nx' a = l.head?)
    (hn : ∀ z ∈ l, nx' z = nx z) (hh : ∀ z ∈ l.head?, pv' z = some a)
    (hp : ∀ z ∈ l.tail, pv' z = pv z) : Linked nx' pv' (a :: l) := by
  have h' := h.congr hn hp
  cases l with
  | nil => exact linked_singleton.mpr ha
  | cons x l => exact linked_cons_cons.mpr ⟨ha, hh x rfl, h'⟩

/-- A new last node. -/
theorem Linked.push_back (h : Linked nx pv (l ++ [x])) (hx : nx' x = some a) (ha : nx' a = none)
    (hpa : pv' a = some x) (hn : ∀ z ∈ l, nx' z = nx z)
    (hp : ∀ z ∈ (l ++ [x]).tail, pv' z = pv z) : Linked nx' pv' (l ++ [x, a]) := by
  induction l with
  | nil => exact linked_cons_cons.mpr ⟨hx, hpa, linked_singleton.mpr ha⟩
  | cons b l ih =>
      have hb := h.next_head
      have hb' : nx' b = nx b := hn b (by simp)
      have ih' := ih h.tail (fun z hz => hn z (List.mem_cons_of_mem _ hz))
        (fun z hz => hp z (List.mem_of_mem_tail hz))
      cases l with
      | nil =>
          have h2 := (linked_cons_cons.mp h).2.1
          exact linked_cons_cons.mpr ⟨hb'.trans hb, (hp x (by simp)).trans h2, ih'⟩
      | cons c l =>
          have h2 := (linked_cons_cons.mp h).2.1
          exact linked_cons_cons.mpr ⟨hb'.trans hb, (hp c (by simp)).trans h2, ih'⟩

/-- The nodes up to `x` keep their links while what follows `x` changes. -/
theorem Linked.replace_tail {m₁ m₂ : List α} (h : Linked nx pv (l ++ x :: m₁))
    (hr : Linked nx' pv' (x :: m₂)) (hn : ∀ z ∈ l, nx' z = nx z)
    (hp : ∀ z ∈ (l ++ [x]).tail, pv' z = pv z) : Linked nx' pv' (l ++ x :: m₂) := by
  refine linked_append.mpr ⟨?_, hr⟩
  have hc := (linked_append.mp h).1
  clear h hr
  induction l with
  | nil => simp
  | cons b l ih =>
      have ih' := fun hc => ih (fun z hz => hn z (List.mem_cons_of_mem _ hz))
        (fun z hz => hp z (List.mem_of_mem_tail hz)) hc
      cases l with
      | nil =>
          simp only [List.nil_append, List.cons_append, List.isChain_pair] at hc ⊢
          exact ⟨(hn b (by simp)).trans hc.1, (hp x (by simp)).trans hc.2⟩
      | cons c l =>
          simp only [List.cons_append, List.isChain_cons_cons] at hc ih' ⊢
          exact ⟨⟨(hn b (by simp)).trans hc.1.1, (hp c (by simp)).trans hc.1.2⟩, ih' hc.2⟩

/-- Removal of a node with a predecessor and a successor. -/
theorem Linked.remove_inner (h : Linked nx pv (l₁ ++ x :: a :: y :: l₂)) (hx : nx' x = some y)
    (hy : pv' y = some x) (hn : ∀ z ∈ l₁ ++ y :: l₂, nx' z = nx z)
    (hp : ∀ z ∈ (l₁ ++ [x]).tail ++ l₂, pv' z = pv z) : Linked nx' pv' (l₁ ++ x :: y :: l₂) := by
  have h3 : Linked nx pv (y :: l₂) := (linked_append.mp h).2.tail.tail
  have h4 : Linked nx' pv' (y :: l₂) :=
    h3.congr (fun z hz => hn z (List.mem_append_right _ hz))
      (fun z hz => hp z (List.mem_append_right _ hz))
  exact h.replace_tail (linked_cons_cons.mpr ⟨hx, hy, h4⟩)
    (fun z hz => hn z (List.mem_append_left _ hz)) (fun z hz => hp z (List.mem_append_left _ hz))

/-- Removal of the last node. -/
theorem Linked.remove_last (h : Linked nx pv (l ++ [x, a])) (hx : nx' x = none)
    (hn : ∀ z ∈ l, nx' z = nx z) (hp : ∀ z ∈ (l ++ [x]).tail, pv' z = pv z) :
    Linked nx' pv' (l ++ [x]) :=
  Linked.replace_tail h (linked_singleton.mpr hx) hn hp

/-- Insertion between two nodes. -/
theorem Linked.insert_inner (h : Linked nx pv (l₁ ++ x :: y :: l₂)) (hx : nx' x = some a)
    (ha : nx' a = some y) (hpa : pv' a = some x) (hy : pv' y = some a)
    (hn : ∀ z ∈ l₁ ++ y :: l₂, nx' z = nx z) (hp : ∀ z ∈ (l₁ ++ [x]).tail ++ l₂, pv' z = pv z) :
    Linked nx' pv' (l₁ ++ x :: a :: y :: l₂) := by
  have h3 : Linked nx pv (y :: l₂) := (linked_append.mp h).2.tail
  have h4 : Linked nx' pv' (y :: l₂) :=
    h3.congr (fun z hz => hn z (List.mem_append_right _ hz))
      (fun z hz => hp z (List.mem_append_right _ hz))
  exact h.replace_tail (linked_cons_cons.mpr ⟨hx, hpa, linked_cons_cons.mpr ⟨ha, hy, h4⟩⟩)
    (fun z hz => hn z (List.mem_append_left _ hz)) (fun z hz => hp z (List.mem_append_left _ hz))

/-! ## 3. Walking along the next links -/

/-- The first `n` nodes met from `p` along `nx`. -/
def walk (nx : α → Option α) : Nat → Option α → List α
  | 0, _ => []
  | _ + 1, none => []
  | n + 1, some a => a :: walk nx n (nx a)

theorem Linked.walk_eq (h : Linked nx pv l) {n : Nat} (hn : l.length ≤ n) :
    walk nx n l.head? = l := by
  induction l generalizing n with
  | nil => cases n <;> rfl
  | cons a l ih =>
      cases n with
      | zero => simp at hn
      | succ n =>
          simp only [List.head?_cons, walk, h.next_head]
          rw [ih h.tail (by simpa using hn)]

end Rtx.Lib
