/-
  File:      Rtx/Lib/Strung.lean
  Subject:   Singly linked lists with a pointer to the first node and one to the last.

  A `Strung` is the two pointers and the nodes in memory; `s.Holds xs` says that it is the list
  `xs` of nodes with their values, in order. The tail pointer of an empty list is not looked at, so
  it may be stale. The operations follow pointers and return `none` where one leads nowhere;
  there is one rule for each. A walk that stops at the first match or else at the last node, and
  has to be tested there, is `stop`.
-/
import Mathlib.Logic.Function.Basic
import Mathlib.Data.List.Perm.Subperm

namespace Rtx.Lib

variable {κ β : Type} [DecidableEq κ]

/-- A node: the pointer to the next one, and its value. -/
structure Node (κ β : Type) where
  next : Option κ
  val : β

/-- The pointers of a list and the nodes in memory. -/
structure Strung (κ β : Type) where
  node : κ → Option (Node κ β)
  head : Option κ
  tail : Option κ

namespace Strung

/-! ## 1. Operations -/

/-- No node. -/
def empty : Strung κ β := ⟨fun _ => none, none, none⟩

/-- Append a new node `a` behind the tail. -/
def append (s : Strung κ β) (a : κ) (v : β) : Option (Strung κ β) :=
  let s := { s with node := Function.update s.node a (some ⟨none, v⟩) }
  match s.head with
  | none => some { s with head := some a, tail := some a }
  | some _ =>
      match s.tail with
      | none => none
      | some z =>
          match s.node z with
          | none => none
          | some n => some { s with
              node := Function.update s.node z (some { n with next := some a })
              tail := some a }

/-- Write the value of a node. -/
def modify (s : Strung κ β) (a : κ) (f : β → β) : Strung κ β :=
  { s with node := Function.update s.node a ((s.node a).map fun n => { n with val := f n.val }) }

/-- Take the first node out and free it: its pointer, its value and the rest. -/
def popHead (s : Strung κ β) : Option (κ × β × Strung κ β) :=
  match s.head with
  | none => none
  | some a =>
      match s.node a with
      | none => none
      | some n => some (a, n.val, { s with node := Function.update s.node a none, head := n.next })

/-- Walk from `a` until a node satisfies `p` or has no successor. -/
def stop (s : Strung κ β) (p : β → Bool) : Nat → κ → Option (κ × β)
  | 0, _ => none
  | fuel + 1, a =>
      match s.node a with
      | none => none
      | some n =>
          match n.next with
          | none => some (a, n.val)
          | some b => if p n.val then some (a, n.val) else stop s p fuel b

/-! ## 2. What a list holds -/

/-- The nodes from `q` on are those of the list, and the last one ends it. -/
def Path (node : κ → Option (Node κ β)) : Option κ → List (κ × β) → Prop
  | q, [] => q = none
  | q, x :: xs => q = some x.1 ∧ ∃ next, node x.1 = some ⟨next, x.2⟩ ∧ Path node next xs

/-- **The list holds `xs`.** -/
structure Holds (s : Strung κ β) (xs : List (κ × β)) : Prop where
  path : Path s.node s.head xs
  tail : ∀ x ∈ xs.getLast?, s.tail = some x.1
  nodup : (xs.map Prod.fst).Nodup

variable {s : Strung κ β} {node node' : κ → Option (Node κ β)} {q : Option κ} {a z : κ} {v w : β}
  {x : κ × β} {xs l₁ l₂ : List (κ × β)} {p : β → Bool} {fuel : Nat}

omit [DecidableEq κ] in
/-- A path depends on its nodes only. -/
theorem Path.congr (h : Path node q xs) (heq : ∀ x ∈ xs, node' x.1 = node x.1) :
    Path node' q xs := by
  induction xs generalizing q with
  | nil => exact h
  | cons x xs ih =>
      obtain ⟨hq, next, hn, h⟩ := h
      exact ⟨hq, next, (heq x List.mem_cons_self).trans hn,
        ih h fun y hy => heq y (List.mem_cons_of_mem _ hy)⟩

omit [DecidableEq κ] in
theorem holds_empty : (empty : Strung κ β).Holds [] := ⟨rfl, nofun, List.nodup_nil⟩

/-- A node that is not in the list may be written. -/
theorem Path.update (h : Path node q xs) (ha : a ∉ xs.map Prod.fst) {n : Option (Node κ β)} :
    Path (Function.update node a n) q xs :=
  h.congr fun x hx => Function.update_of_ne
    (fun e : x.1 = a => ha (List.mem_map.mpr ⟨x, hx, e⟩)) _ _

omit [DecidableEq κ] in
/-- The last node. -/
theorem Path.last (h : Path node q (xs ++ [(z, w)])) : node z = some ⟨none, w⟩ := by
  induction xs generalizing q with
  | nil =>
      obtain ⟨-, next, hn, hnext⟩ := h
      exact hn.trans (by rw [show next = none from hnext])
  | cons x xs ih =>
      obtain ⟨-, next, -, h⟩ := h
      exact ih h

/-- The last node gets a successor. -/
theorem Path.snoc (h : Path node q (xs ++ [(z, w)])) (hn : ((xs ++ [(z, w)]).map Prod.fst).Nodup)
    (ha : node a = some ⟨none, v⟩) (haxs : a ∉ (xs ++ [(z, w)]).map Prod.fst) :
    Path (Function.update node z (some ⟨some a, w⟩)) q (xs ++ [(z, w)] ++ [(a, v)]) := by
  induction xs generalizing q with
  | nil =>
      have hza : a ≠ z := fun e => haxs (by simp [e])
      refine ⟨h.1, some a, Function.update_self _ _ _, rfl, none, ?_, rfl⟩
      rw [Function.update_of_ne hza]
      exact ha
  | cons x xs ih =>
      obtain ⟨hq, next, hx, h⟩ := h
      simp only [List.cons_append, List.map_cons, List.nodup_cons, List.mem_cons, not_or] at hn haxs
      have hxz : x.1 ≠ z := fun e => hn.1 (by simp [e])
      refine ⟨hq, next, ?_, ih h hn.2 haxs.2⟩
      rw [Function.update_of_ne hxz]
      exact hx

/-- A value in the list is written. -/
theorem Path.modify (h : Path node q (l₁ ++ (a, v) :: l₂))
    (hn : ((l₁ ++ (a, v) :: l₂).map Prod.fst).Nodup) (f : β → β) :
    Path (Function.update node a ((node a).map fun n => { n with val := f n.val })) q
      (l₁ ++ (a, f v) :: l₂) := by
  induction l₁ generalizing q with
  | nil =>
      obtain ⟨hq, next, ha, h⟩ := h
      rw [List.nil_append, List.map_cons, List.nodup_cons] at hn
      refine ⟨hq, next, ?_, h.update hn.1⟩
      rw [Function.update_self, ha]
      rfl
  | cons x l₁ ih =>
      obtain ⟨hq, next, hx, h⟩ := h
      rw [List.cons_append, List.map_cons, List.nodup_cons] at hn
      have hxa : x.1 ≠ a := fun e => hn.1 (by simp [e])
      refine ⟨hq, next, ?_, ih h hn.2⟩
      rw [Function.update_of_ne hxa]
      exact hx

/-! ## 3. The rules -/

/-- A new node behind the others. -/
theorem Holds.append (h : s.Holds xs) (ha : a ∉ xs.map Prod.fst) (v : β) :
    ∃ s', s.append a v = some s' ∧ s'.Holds (xs ++ [(a, v)]) := by
  unfold Strung.append
  rcases List.eq_nil_or_concat' xs with rfl | ⟨l, ⟨z, w⟩, rfl⟩
  · have hhead : s.head = none := h.path
    simp only [hhead]
    refine ⟨_, rfl, ⟨rfl, none, Function.update_self _ _ _, rfl⟩, fun x hx => ?_, by simp⟩
    obtain rfl : (a, v) = x := Option.some.inj hx
    rfl
  · obtain ⟨b, hb⟩ : ∃ b, s.head = some b := by
      cases l with
      | nil => exact ⟨_, h.path.1⟩
      | cons y l => exact ⟨_, h.path.1⟩
    have htail : s.tail = some z := h.tail (z, w) (by simp)
    have hza : z ≠ a := fun e => ha (by simp [e])
    have hz : Function.update s.node a (some ⟨none, v⟩) z = some ⟨none, w⟩ := by
      rw [Function.update_of_ne hza]
      exact h.path.last
    simp only [hb, htail, hz]
    refine ⟨_, rfl, ?_, fun x hx => ?_, ?_⟩
    · exact (hb ▸ h.path.update ha).snoc h.nodup (Function.update_self _ _ _) ha
    · rw [List.getLast?_append_of_ne_nil _ (by simp)] at hx
      obtain rfl : (a, v) = x := Option.some.inj hx
      rfl
    · rw [List.map_append, List.nodup_append]
      refine ⟨h.nodup, by simp, fun y hy y' hy' e => ha ?_⟩
      rw [List.map_singleton, List.mem_singleton] at hy'
      rwa [e, hy'] at hy

/-- A value is written. -/
theorem Holds.modify (h : s.Holds (l₁ ++ (a, v) :: l₂)) (f : β → β) :
    (s.modify a f).Holds (l₁ ++ (a, f v) :: l₂) := by
  have hkeys : (l₁ ++ (a, f v) :: l₂).map Prod.fst = (l₁ ++ (a, v) :: l₂).map Prod.fst := by simp
  refine ⟨h.path.modify h.nodup f, fun x hx => ?_, hkeys ▸ h.nodup⟩
  show s.tail = some x.1
  rcases List.eq_nil_or_concat' l₂ with rfl | ⟨l, y, rfl⟩
  · rw [List.getLast?_append_of_ne_nil _ (by simp)] at hx
    obtain rfl : (a, f v) = x := Option.some.inj hx
    exact h.tail (a, v) (by simp)
  · refine h.tail x ?_
    rw [← List.cons_append, ← List.append_assoc, List.getLast?_concat] at hx ⊢
    exact hx

/-- The first node is taken out. -/
theorem Holds.popHead (h : s.Holds ((a, v) :: xs)) :
    ∃ s', s.popHead = some (a, v, s') ∧ s'.Holds xs := by
  obtain ⟨hq, next, hn, hp⟩ := h.path
  have hnodup := h.nodup
  rw [List.map_cons, List.nodup_cons] at hnodup
  unfold Strung.popHead
  simp only [hq, hn]
  refine ⟨_, rfl, hp.update hnodup.1, fun x hx => ?_, hnodup.2⟩
  refine h.tail x ?_
  cases xs with
  | nil => exact absurd hx (by simp)
  | cons y xs =>
      rw [List.getLast?_cons_cons]
      exact hx

omit [DecidableEq κ] in
/-- Where a walk stops: at the first node that satisfies `p`, or at the last one. -/
theorem stop_spec (h : Path s.node q (x :: xs)) (hf : xs.length < fuel) :
    ∃ l₁ y l₂, x :: xs = l₁ ++ y :: l₂ ∧ s.stop p fuel x.1 = some y ∧
      (∀ u ∈ l₁, p u.2 = false) ∧ (p y.2 = true ∨ l₂ = []) := by
  induction xs generalizing q x fuel with
  | nil =>
      obtain ⟨f, rfl⟩ : ∃ f, fuel = f + 1 := ⟨fuel - 1, by omega⟩
      obtain ⟨-, next, hn, hnext⟩ := h
      obtain rfl : next = none := hnext
      refine ⟨[], x, [], rfl, ?_, nofun, Or.inr rfl⟩
      unfold Strung.stop
      simp only [hn]
  | cons y xs ih =>
      obtain ⟨f, rfl⟩ : ∃ f, fuel = f + 1 := ⟨fuel - 1, by omega⟩
      obtain ⟨-, next, hn, hp⟩ := h
      obtain rfl : next = some y.1 := hp.1
      unfold Strung.stop
      simp only [hn]
      cases hx : p x.2 with
      | true => exact ⟨[], x, y :: xs, rfl, rfl, nofun, Or.inl hx⟩
      | false =>
          obtain ⟨l₁, z, l₂, he, hs, hl, hz⟩ := ih hp (show xs.length < f by simpa using hf)
          refine ⟨x :: l₁, z, l₂, by rw [he]; rfl, hs, fun u hu => ?_, hz⟩
          cases List.mem_cons.mp hu with
          | inl e => exact e ▸ hx
          | inr hu => exact hl u hu

/-! ## 4. Numbered nodes -/

section Numbered

variable {s : Strung Nat β} {xs l₁ l₂ : List (Nat × β)} {n n' a : Nat}

/-- The list holds `xs`, and its nodes are among the first `n`. -/
structure Spans (s : Strung Nat β) (n : Nat) (xs : List (Nat × β)) : Prop extends s.Holds xs where
  lt : ∀ x ∈ xs, x.1 < n

theorem spans_empty : (empty : Strung Nat β).Spans n [] := ⟨holds_empty, nofun⟩

/-- A list without a first node. -/
theorem spans_nil (h : s.head = none) : s.Spans n [] := ⟨⟨h, nofun, List.nodup_nil⟩, nofun⟩

theorem Spans.mono (h : s.Spans n xs) (hn : n ≤ n') : s.Spans n' xs :=
  ⟨h.toHolds, fun x hx => Nat.lt_of_lt_of_le (h.lt x hx) hn⟩

/-- There are no more nodes than numbers. -/
theorem Spans.length_le (h : s.Spans n xs) : xs.length ≤ n := by
  have hsub : xs.map Prod.fst ⊆ List.range n := by
    intro a ha
    obtain ⟨x, hx, rfl⟩ := List.mem_map.mp ha
    exact List.mem_range.mpr (h.lt x hx)
  have hlen := (List.subperm_of_subset h.nodup hsub).length_le
  rwa [List.length_map, List.length_range] at hlen

/-- The next node goes behind the others. -/
theorem Spans.append (h : s.Spans n xs) (v : β) :
    ∃ s', s.append n v = some s' ∧ s'.Spans (n + 1) (xs ++ [(n, v)]) := by
  have hn : n ∉ xs.map Prod.fst := by
    intro hmem
    obtain ⟨x, hx, he⟩ := List.mem_map.mp hmem
    exact absurd (h.lt x hx) (by omega)
  obtain ⟨s', hs', hh⟩ := h.toHolds.append hn v
  refine ⟨s', hs', hh, fun x hx => ?_⟩
  rcases List.mem_append.mp hx with hx | hx
  · exact Nat.lt_succ_of_lt (h.lt x hx)
  · rw [List.mem_singleton.mp hx]
    exact Nat.lt_succ_self n

theorem Spans.modify (h : s.Spans n (l₁ ++ (a, v) :: l₂)) (f : β → β) :
    (s.modify a f).Spans n (l₁ ++ (a, f v) :: l₂) := by
  refine ⟨h.toHolds.modify f, fun x hx => ?_⟩
  have ha : a < n := h.lt (a, v) (by simp)
  simp only [List.mem_append, List.mem_cons] at hx
  rcases hx with hx | rfl | hx
  · exact h.lt x (by simp [hx])
  · exact ha
  · exact h.lt x (by simp [hx])

theorem Spans.popHead (h : s.Spans n ((a, v) :: xs)) :
    ∃ s', s.popHead = some (a, v, s') ∧ s'.Spans n xs := by
  obtain ⟨s', hs', hh⟩ := h.toHolds.popHead
  exact ⟨s', hs', hh, fun x hx => h.lt x (List.mem_cons_of_mem _ hx)⟩

end Numbered

end Strung

end Rtx.Lib
