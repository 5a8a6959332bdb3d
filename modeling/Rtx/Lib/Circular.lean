/-
  File:      Rtx/Lib/Circular.lean
  Subject:   Lists stored in a circular region of a memory.

  The region is the `C` cells from `s`; position `i` is the cell `s + i % C`, so positions run on
  past the end and come round again. `Holds mem s C off l`: from position `off` on the region
  holds `l`. Positions less than `C` apart are different cells (`cell_inj`), which is what keeps a
  list of at most `C` elements in place while other positions are written.
-/
import Mathlib.Data.List.Basic

namespace Rtx.Lib

variable {α : Type*} {mem mem' : Nat → α} {s C off off' i j : Nat} {l l₁ l₂ : List α}

/-- The cell of a position. -/
def cell (s C i : Nat) : Nat := s + i % C

/-- The region holds `l` from position `off` on. -/
def Holds (mem : Nat → α) (s C off : Nat) (l : List α) : Prop :=
  ∀ i (h : i < l.length), mem (cell s C (off + i)) = l[i]

theorem cell_lt (hC : 0 < C) : cell s C i < s + C := by
  have := Nat.mod_lt i hC
  rw [cell]
  omega

theorem le_cell : s ≤ cell s C i := Nat.le_add_right _ _

/-- Within one turn positions are different cells. -/
theorem cell_inj (h : cell s C i = cell s C j) (hij : i ≤ j) (hlt : j < i + C) : i = j := by
  have hm : j % C = i % C := by
    rw [cell, cell] at h
    omega
  have hz : (j - i) % C = 0 := Nat.sub_mod_eq_zero_of_mod_eq hm
  rw [Nat.mod_eq_of_lt (by omega)] at hz
  omega

theorem cell_of_lt (h : i < C) : cell s C i = s + i := by
  rw [cell, Nat.mod_eq_of_lt h]

theorem cell_of_ge (h : C ≤ i) (h' : i < C + C) : cell s C i = s + (i - C) := by
  rw [cell, Nat.mod_eq_sub_mod h, Nat.mod_eq_of_lt (by omega)]

/-- A start position counts only modulo the size of the region. -/
theorem cell_add_congr (h : off' % C = off % C) (i : Nat) :
    cell s C (off' + i) = cell s C (off + i) := by
  rw [cell, cell, Nat.add_mod, h, ← Nat.add_mod]

theorem Holds.of_mod_eq (h : Holds mem s C off l) (ho : off' % C = off % C) :
    Holds mem s C off' l := by
  intro i hi
  rw [cell_add_congr ho]
  exact h i hi

theorem holds_nil : Holds mem s C off [] := fun i hi => absurd hi (Nat.not_lt_zero i)

theorem holds_append :
    Holds mem s C off (l₁ ++ l₂) ↔ Holds mem s C off l₁ ∧ Holds mem s C (off + l₁.length) l₂ := by
  refine ⟨fun h => ⟨fun i hi => ?_, fun i hi => ?_⟩, fun ⟨h1, h2⟩ i hi => ?_⟩
  · have := h i (by rw [List.length_append]; omega)
    rw [List.getElem_append_left hi] at this
    exact this
  · have := h (l₁.length + i) (by rw [List.length_append]; omega)
    rw [List.getElem_append_right (by omega)] at this
    simp only [Nat.add_sub_cancel_left] at this
    rw [Nat.add_assoc]
    exact this
  · rcases Nat.lt_or_ge i l₁.length with hlt | hge
    · rw [List.getElem_append_left hlt]
      exact h1 i hlt
    · rw [List.getElem_append_right hge]
      have := h2 (i - l₁.length) (by rw [List.length_append] at hi; omega)
      rw [Nat.add_assoc, Nat.add_sub_cancel' hge] at this
      exact this

theorem Holds.congr (h : Holds mem s C off l)
    (hm : ∀ i, i < l.length → mem' (cell s C (off + i)) = mem (cell s C (off + i))) :
    Holds mem' s C off l := by
  intro i hi
  rw [hm i hi]
  exact h i hi

/-- **Appending.** New elements written right behind a list, all within one turn, leave it in
    place. -/
theorem Holds.append (h : Holds mem s C off l₁)
    (hw : ∀ i (hi : i < l₂.length), mem' (cell s C (off + l₁.length + i)) = l₂[i])
    (hf : ∀ a, (∀ i, i < l₂.length → a ≠ cell s C (off + l₁.length + i)) → mem' a = mem a)
    (hle : l₁.length + l₂.length ≤ C) : Holds mem' s C off (l₁ ++ l₂) := by
  refine holds_append.mpr ⟨h.congr fun i hi => hf _ fun j hj e => ?_, hw⟩
  have := cell_inj e (by omega) (by omega)
  omega

/-- Writes outside the region leave its lists in place. -/
theorem Holds.frame (h : Holds mem s C off l) (hC : 0 < C)
    (hf : ∀ a, s ≤ a → a < s + C → mem' a = mem a) : Holds mem' s C off l :=
  h.congr fun _ _ => hf _ le_cell (cell_lt hC)

end Rtx.Lib
